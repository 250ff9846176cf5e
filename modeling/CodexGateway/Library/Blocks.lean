import Mathlib.Data.List.Basic
import Mathlib.Tactic.Common

/-!
# Library/Blocks — a stream sent in numbered blocks of one size

A sender gets a stream in chunks of any length.  It keeps the end that is short of a block, and
`Buffered` says what it has sent.  When the stream is over the end is sent as a block of its own,
unless it is empty, and the blocks are the whole stream (`Complete`).
-/

namespace Blocks

variable {α : Type} {n : ℕ} {stream buffer : List α} {blocks : List (ℕ × List α)}

/-- Full blocks, numbered from one, and the rest of what has come of the stream. -/
structure Buffered (n : ℕ) (stream : List α) (blocks : List (ℕ × List α)) (buffer : List α) :
    Prop where
  numbered : blocks.map Prod.fst = List.range' 1 blocks.length
  joined : (blocks.map Prod.snd).flatten ++ buffer = stream
  full : ∀ block ∈ blocks, block.2.length = n

/-- **The blocks are the stream**, and only the last of them may be short. -/
structure Complete (n : ℕ) (stream : List α) (blocks : List (ℕ × List α)) : Prop where
  numbered : blocks.map Prod.fst = List.range' 1 blocks.length
  joined : (blocks.map Prod.snd).flatten = stream
  full : ∀ block ∈ blocks.dropLast, block.2.length = n
  nonempty : ∀ block ∈ blocks, block.2 ≠ [] ∧ block.2.length ≤ n

theorem buffered_nil : Buffered n ([] : List α) [] [] := ⟨rfl, rfl, by simp⟩

/-- The number of the next block. -/
theorem range'_succ_length (blocks : List (ℕ × List α)) (block : List α) :
    List.range' 1 (blocks ++ [(blocks.length + 1, block)]).length =
      List.range' 1 blocks.length ++ [blocks.length + 1] := by
  rw [List.length_append, List.length_singleton, List.range'_concat, Nat.one_mul, Nat.add_comm 1]

theorem Buffered.feed (h : Buffered n stream blocks buffer) (chunk : List α) :
    Buffered n (stream ++ chunk) blocks (buffer ++ chunk) :=
  ⟨h.numbered, by rw [← List.append_assoc, h.joined], h.full⟩

theorem Buffered.send (h : Buffered n stream blocks buffer) (hn : n ≤ buffer.length) :
    Buffered n stream (blocks ++ [(blocks.length + 1, buffer.take n)]) (buffer.drop n) where
  numbered := by rw [range'_succ_length, List.map_append, h.numbered]; rfl
  joined := by
    rw [List.map_append, List.flatten_append, List.append_assoc, ← h.joined]
    simp
  full := by
    intro block hblock
    rcases List.mem_append.mp hblock with hblock | hblock
    · exact h.full block hblock
    · obtain rfl := List.mem_singleton.mp hblock
      exact List.length_take_of_le hn

/-- The stream ends with the last full block. -/
theorem Buffered.complete (h : Buffered n stream blocks []) (hn : 0 < n) :
    Complete n stream blocks where
  numbered := h.numbered
  joined := by rw [← h.joined, List.append_nil]
  full := fun block hblock => h.full block (List.dropLast_subset _ hblock)
  nonempty := fun block hblock => by
    have hfull := h.full block hblock
    exact ⟨List.ne_nil_of_length_pos (by omega), Nat.le_of_eq hfull⟩

/-- The rest of the stream is sent as the last block. -/
theorem Buffered.rest (h : Buffered n stream blocks buffer) (hne : buffer ≠ [])
    (hshort : buffer.length < n) : Complete n stream (blocks ++ [(blocks.length + 1, buffer)]) where
  numbered := by rw [range'_succ_length, List.map_append, h.numbered]; rfl
  joined := by
    rw [List.map_append, List.flatten_append, ← h.joined]
    simp
  full := by
    rw [List.dropLast_concat]
    exact h.full
  nonempty := by
    intro block hblock
    rcases List.mem_append.mp hblock with hblock | hblock
    · have hfull := h.full block hblock
      exact ⟨List.ne_nil_of_length_pos (by omega), Nat.le_of_eq hfull⟩
    · obtain rfl := List.mem_singleton.mp hblock
      exact ⟨hne, Nat.le_of_lt hshort⟩

end Blocks
