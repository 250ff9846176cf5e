import Mathlib.Data.Int.Order.Basic
import Mathlib.Data.List.Infix
import Mathlib.Data.List.Nodup
import Mathlib.Logic.Relation
import Mathlib.Tactic.Common

/-!
# Library/Follower — a reader that follows a bounded log by its cursor

Elements are numbered from zero and appended to a log, which keeps only the end of its history.  A
follower subscribes at its cursor, is sent what the log still has, takes the elements one by one and
advances its cursor when it is done with one.  It may lose its subscription at any time and then
subscribes again where its cursor stands.  An element is either a request, which is surfaced and
resolved, or it is consumed as a batch.  `Follows` is the invariant of a follower that takes no
element beyond the next one.
-/

namespace Follower

variable {E : Type}

/-! ## The log -/

/-- The log is the end of a history whose elements are numbered from zero. -/
structure Records (number : E → ℕ) (log history : List E) : Prop where
  numbered : ∀ i e, history[i]? = some e → number e = i
  suffix : log <:+ history

/-- What a log still has after a cursor. -/
def after (number : E → ℕ) (log : List E) (cursor : ℤ) : List E :=
  log.filter fun e => cursor < number e

section Records

variable {number : E → ℕ} {log log' history : List E} {e e' : E}

theorem records_nil : Records number ([] : List E) [] where
  numbered := fun _ _ h => by cases h
  suffix := List.suffix_rfl

theorem Records.append (h : Records number log history) (hnumber : number e = history.length)
    (hlog : log' <:+ log ++ [e]) : Records number log' (history ++ [e]) where
  numbered := fun i e' hi => by
    rcases Nat.lt_or_ge i history.length with hlt | hge
    · rw [List.getElem?_append_left hlt] at hi
      exact h.numbered i e' hi
    · rw [List.getElem?_append_right hge, List.getElem?_singleton] at hi
      split_ifs at hi with hzero
      obtain rfl := Option.some.inj hi
      exact hnumber.trans (Nat.le_antisymm hge (Nat.sub_eq_zero_iff_le.mp hzero))
  suffix := by
    obtain ⟨front, hfront⟩ := h.suffix
    refine hlog.trans ⟨front, ?_⟩
    rw [← List.append_assoc, hfront]

/-- An element is known by its number. -/
theorem Records.unique (h : Records number log history) (hmem : e ∈ history) (hmem' : e' ∈ history)
    (hnumber : number e = number e') : e = e' := by
  obtain ⟨i, hi⟩ := List.getElem?_of_mem hmem
  obtain ⟨j, hj⟩ := List.getElem?_of_mem hmem'
  have hij : i = j := (h.numbered i e hi).symm.trans (hnumber.trans (h.numbered j e' hj))
  rw [hij, hj] at hi
  exact (Option.some.inj hi).symm

theorem Records.sorted (h : Records number log history) :
    history.Pairwise fun e e' => number e < number e' := by
  rw [List.pairwise_iff_getElem]
  intro i j hi hj hlt
  rw [h.numbered i _ (List.getElem?_eq_getElem hi), h.numbered j _ (List.getElem?_eq_getElem hj)]
  exact hlt

theorem Records.lt_length (h : Records number log history) (hmem : e ∈ history) :
    number e < history.length := by
  obtain ⟨i, hi⟩ := List.getElem?_of_mem hmem
  rw [h.numbered i e hi]
  exact (List.getElem?_eq_some_iff.mp hi).1

/-- What is read: elements of the history after the cursor, in their order. -/
theorem Records.after (h : Records number log history) (cursor : ℤ) :
    (∀ e ∈ after number log cursor, e ∈ history ∧ cursor < number e) ∧
      (after number log cursor).Pairwise fun e e' => number e < number e' := by
  constructor
  · intro e hmem
    obtain ⟨hlog, hafter⟩ := List.mem_filter.mp hmem
    exact ⟨h.suffix.subset hlog, by simpa using hafter⟩
  · exact (h.sorted.sublist h.suffix.sublist).filter _

/-- What the log has lost stays lost. -/
theorem Records.evicted (h : Records number log history) (hmem : e ∈ history) (hlost : e ∉ log)
    (hnumber : number e' = history.length) (hlog : log' <:+ log ++ [e']) : e ∉ log' := by
  intro hin
  rcases List.mem_append.mp (hlog.subset hin) with hold | hnew
  · exact hlost hold
  · obtain rfl := List.mem_singleton.mp hnew
    exact absurd (h.lt_length hmem) (by omega)

end Records

/-! ## The follower -/

/-- What a follower knows and has done; `next` is the number of the element that is appended next, and
`sent` the cursor at the other end of the subscription. -/
structure Feed (E : Type) where
  log : List E
  next : ℕ
  history : List E
  stream : List E
  sent : ℤ
  cursor : ℤ
  start : ℤ
  consumed : List ℕ
  processed : List ℕ
  surfaced : List ℕ
  resolved : List ℕ

/-- What the follower is at: not begun, without a subscription, at the next element of its stream,
at one element, or at its end. -/
inductive Holding (E : Type) where
  | before
  | apart
  | ready
  | request (e : E)
  | batch (e : E)
  | over

/-- The element the follower is at. -/
def Holding.element? : Holding E → Option E
  | .request e | .batch e => some e
  | _ => none

/-- There is a subscription. -/
def Holding.Subscribed : Holding E → Prop
  | .ready | .request _ | .batch _ => True
  | _ => False

/-- Nothing was consumed beyond the cursor. -/
def Holding.Settled : Holding E → Prop
  | .batch _ | .over => False
  | _ => True

variable (number : E → ℕ)

/-- The follower has seen the elements up to here. -/
def Holding.position (cursor : ℤ) (h : Holding E) : ℤ :=
  (h.element?.map fun e => (number e : ℤ)).getD cursor

namespace Feed

/-- The initial state, for an empty history. -/
def init : Feed E := ⟨[], 0, [], [], -1, -1, -1, [], [], [], []⟩

/-- The follower connects, and asks for what comes after its cursor. -/
def connect (f : Feed E) : Feed E := { f with stream := [], sent := f.cursor }

/-- What the follower has not been sent is sent. -/
def send (f : Feed E) : Feed E :=
  let sending := after number f.log f.sent
  { f with
    stream := f.stream ++ sending
    sent := (sending.getLast?.map fun e => (number e : ℤ)).getD f.sent }

/-- The follower has processed an event. -/
def advance (f : Feed E) (e : E) : Feed E :=
  { f with cursor := number e, processed := f.processed ++ [number e] }

end Feed

/-- One move of a follower.  Only a lossy one abandons a request that it has surfaced; only a wanted
element is consumed. -/
inductive Move (wanted : E → Prop) (lossy : Prop) : Feed E × Holding E → Feed E × Holding E → Prop
  | append (f : Feed E) (h : Holding E) (e : E) (log : List E) (hnumber : number e = f.next)
      (hlog : log <:+ f.log ++ [e]) : Move wanted lossy (f, h)
      ({ f with log := log, next := f.next + 1, history := f.history ++ [e] }, h)
  | readCursor (f : Feed E) : Move wanted lossy (f, .before)
      ({ f with cursor := f.next - 1, start := f.next - 1 }, .before)
  | begin (f : Feed E) : Move wanted lossy (f, .before) (f, .apart)
  | connect (f : Feed E) : Move wanted lossy (f, .apart) (f.connect, .ready)
  | send (f : Feed E) (h : Holding E) (hsub : h.Subscribed) :
      Move wanted lossy (f, h) (f.send number, h)
  | leave (f : Feed E) : Move wanted lossy (f, .ready) (f, .apart)
  /-- The next element is refused, and the subscription with it. -/
  | refuse (f : Feed E) (e : E) (rest : List E) (hstream : f.stream = e :: rest) :
      Move wanted lossy (f, .ready) ({ f with stream := rest }, .apart)
  | take (f : Feed E) (e : E) (rest : List E) (hstream : f.stream = e :: rest)
      (hnext : (number e : ℤ) ≤ f.cursor + 1) :
      Move wanted lossy (f, .ready) ({ f with stream := rest }, .request e)
  | surface (f : Feed E) (e : E) (rest : List E) (hstream : f.stream = e :: rest)
      (hnext : (number e : ℤ) ≤ f.cursor + 1) : Move wanted lossy (f, .ready)
      ({ f with stream := rest, surfaced := f.surfaced ++ [number e] }, .request e)
  | consume (f : Feed E) (e : E) (rest : List E) (hstream : f.stream = e :: rest)
      (hnext : (number e : ℤ) ≤ f.cursor + 1) (hwanted : wanted e) : Move wanted lossy (f, .ready)
      ({ f with stream := rest, consumed := f.consumed ++ [number e] }, .batch e)
  /-- The next element concerns someone else. -/
  | pass (f : Feed E) (e : E) (rest : List E) (hstream : f.stream = e :: rest)
      (hnext : (number e : ℤ) ≤ f.cursor + 1) :
      Move wanted lossy (f, .ready) ({ f with stream := rest }, .batch e)
  | advance (f : Feed E) (e : E) : Move wanted lossy (f, .batch e) (f.advance number e, .ready)
  | settle (f : Feed E) (e : E) : Move wanted lossy (f, .request e)
      ({ f with resolved := f.resolved ++ [number e] }.advance number e, .ready)
  | abandon (f : Feed E) (e : E) (hlossy : lossy) : Move wanted lossy (f, .request e)
      ({ f with resolved := f.resolved ++ [number e] }, .apart)
  | stop (f : Feed E) (h : Holding E) : Move wanted lossy (f, h) (f, .over)

/-- Any number of moves. -/
abbrev Moves (wanted : E → Prop) (lossy : Prop) :=
  Relation.ReflTransGen (Move number wanted lossy)

theorem Move.mono {number : E → ℕ} {wanted : E → Prop} {lossy lossy' : Prop}
    {p q : Feed E × Holding E} (himp : lossy → lossy') (h : Move number wanted lossy p q) :
    Move number wanted lossy' p q := by
  cases h with
  | abandon f e hlossy => exact .abandon f e (himp hlossy)
  | _ => constructor <;> assumption

theorem Moves.mono {number : E → ℕ} {wanted : E → Prop} {lossy lossy' : Prop}
    {p q : Feed E × Holding E} (himp : lossy → lossy') (h : Moves number wanted lossy p q) :
    Moves number wanted lossy' p q :=
  Relation.ReflTransGen.mono (fun _ _ => Move.mono himp) p q h

/-- **The invariant of a follower.** -/
structure Follows (wanted : E → Prop) (p : Feed E × Holding E) : Prop where
  records : Records number p.1.log p.1.history
  next : p.1.next = p.1.history.length
  stream_history : ∀ e ∈ p.1.stream, e ∈ p.1.history
  stream_sorted : p.1.stream.Pairwise fun e e' => number e < number e'
  stream_after : ∀ e ∈ p.1.stream, p.2.position number p.1.cursor < number e
  sent : p.2.Subscribed → p.2.position number p.1.cursor ≤ p.1.sent ∧
    ∀ e ∈ p.1.stream, (number e : ℤ) ≤ p.1.sent
  held : ∀ e, p.2.element? = some e → e ∈ p.1.history ∧ (number e : ℤ) = p.1.cursor + 1
  consumed_sorted : p.1.consumed.Pairwise (· < ·)
  consumed_mem : ∀ i ∈ p.1.consumed, p.1.start < i ∧ (i : ℤ) ≤ p.1.cursor + 1 ∧
    ∃ e ∈ p.1.history, number e = i ∧ wanted e
  settled : p.2.Settled → ∀ i ∈ p.1.consumed, (i : ℤ) ≤ p.1.cursor
  processed : ∀ j : ℕ, p.1.start < j → (j : ℤ) ≤ p.1.cursor → j ∈ p.1.processed
  start_le : p.1.start ≤ p.1.cursor
  begun : p.2 = .before → p.1.start = p.1.cursor ∧ p.1.stream = [] ∧ p.1.consumed = []

/-- The element has left the log, and the follower will not be sent it. -/
structure Unread (lost : E) (p : Feed E × Holding E) : Prop where
  begun : p.2 ≠ .before
  mem : lost ∈ p.1.history
  log : lost ∉ p.1.log
  stream : lost ∉ p.1.stream
  cursor : p.1.cursor < number lost
  held : p.2.element? ≠ some lost
  consumed : number lost ∉ p.1.consumed

/-- No request was surfaced twice, and each that was resolved lies behind the cursor. -/
structure Surfaced (p : Feed E × Holding E) : Prop where
  nodup : p.1.surfaced.Nodup
  behind : ∀ i ∈ p.1.surfaced, (i : ℤ) ≤ p.1.cursor ∨
    (∃ e, p.2 = .request e ∧ number e = i) ∨ (p.2 = .over ∧ (i : ℤ) = p.1.cursor + 1)
  resolved : ∀ i ∈ p.1.resolved, (i : ℤ) ≤ p.1.cursor
  begun : p.2 = .before → p.1.surfaced = [] ∧ p.1.resolved = []

variable {number} {wanted : E → Prop} {lossy : Prop} {p q : Feed E × Holding E} {lost : E}

theorem follows_init : Follows number wanted ((Feed.init : Feed E), .before) where
  records := records_nil
  next := rfl
  stream_history := fun _ h => by cases h
  stream_sorted := List.Pairwise.nil
  stream_after := fun _ h => by cases h
  sent := fun h => h.elim
  held := fun _ h => by cases h
  consumed_sorted := List.Pairwise.nil
  consumed_mem := fun _ h => by cases h
  settled := fun _ _ h => by cases h
  processed := fun _ h h' => absurd h (Int.not_lt.mpr h')
  start_le := Int.le_refl _
  begun := fun _ => ⟨rfl, rfl, rfl⟩

/-! ## What one move keeps -/

theorem position_of_held {h : Holding E} {e : E} (hheld : h.element? = some e) (cursor : ℤ) :
    h.position number cursor = number e := by simp [Holding.position, hheld]

theorem cursor_le_position (h : Follows number wanted p) :
    p.1.cursor ≤ p.2.position number p.1.cursor := by
  cases he : p.2.element? with
  | none => simp [Holding.position, he]
  | some e =>
    rw [position_of_held he, (h.held e he).2]
    omega

/-- The next element of the stream of a follower that is at none. -/
theorem Follows.head {f : Feed E} {e : E} {rest : List E} (h : Follows number wanted (f, .ready))
    (hstream : f.stream = e :: rest) : e ∈ f.history ∧ f.cursor < number e ∧ (number e : ℤ) ≤ f.sent ∧
      (∀ e' ∈ rest, e' ∈ f.history ∧ number e < number e' ∧ (number e' : ℤ) ≤ f.sent) ∧
      rest.Pairwise fun e e' => number e < number e' := by
  have hmem : ∀ e' ∈ e :: rest, e' ∈ f.stream := fun e' he' => hstream ▸ he'
  have hsorted : (e :: rest).Pairwise fun e e' => number e < number e' := hstream ▸ h.stream_sorted
  obtain ⟨hlt, hrest⟩ := List.pairwise_cons.mp hsorted
  have hsent := (h.sent trivial).2
  refine ⟨h.stream_history e (hmem e List.mem_cons_self), h.stream_after e (hmem e List.mem_cons_self),
    hsent e (hmem e List.mem_cons_self), fun e' he' => ?_, hrest⟩
  have hin := hmem e' (List.mem_cons_of_mem e he')
  exact ⟨h.stream_history e' hin, hlt e' he', hsent e' hin⟩

/-- The follower takes the next element. -/
theorem Follows.taken {f : Feed E} {e : E} {rest : List E} (h : Follows number wanted (f, .ready))
    (hstream : f.stream = e :: rest) (hnext : (number e : ℤ) ≤ f.cursor + 1) (h' : Holding E)
    (hheld : h'.element? = some e) (hsub : h'.Subscribed) (surfaced : List ℕ) :
    Follows number wanted ({ f with stream := rest, surfaced := surfaced }, h') := by
  obtain ⟨hmem, hlt, hsent, hrest, hsorted⟩ := h.head hstream
  refine ⟨h.records, h.next, fun e' he' => (hrest e' he').1, hsorted, fun e' he' => ?_, fun _ => ?_,
    fun e' he' => ?_, h.consumed_sorted, h.consumed_mem, fun _ => h.settled trivial, h.processed,
    h.start_le, fun hbefore => ?_⟩
  · rw [position_of_held hheld]
    exact_mod_cast (hrest e' he').2.1
  · rw [position_of_held hheld]
    exact ⟨hsent, fun e' he' => (hrest e' he').2.2⟩
  · obtain rfl := Option.some.inj (hheld.symm.trans he')
    exact ⟨hmem, Int.le_antisymm hnext hlt⟩
  · obtain rfl : h' = .before := hbefore
    cases hheld

theorem Follows.consumed {f : Feed E} {e : E} {rest : List E}
    (h : Follows number wanted (f, .ready)) (hstream : f.stream = e :: rest)
    (hnext : (number e : ℤ) ≤ f.cursor + 1) (hwanted : wanted e) : Follows number wanted
      ({ f with stream := rest, consumed := f.consumed ++ [number e] }, .batch e) := by
  have htaken := h.taken hstream hnext (.batch e) rfl trivial f.surfaced
  obtain ⟨hmem, hlt, -, -, -⟩ := h.head hstream
  refine ⟨htaken.records, htaken.next, htaken.stream_history, htaken.stream_sorted, htaken.stream_after,
    htaken.sent, htaken.held, ?_, fun i hi => ?_, fun hsettled => hsettled.elim, htaken.processed,
    h.start_le, fun hbefore => (by cases hbefore)⟩
  · refine List.pairwise_append.mpr ⟨h.consumed_sorted, List.pairwise_singleton _ _, ?_⟩
    intro i hi j hj
    obtain rfl := List.mem_singleton.mp hj
    exact_mod_cast Int.lt_of_le_of_lt (h.settled trivial i hi) hlt
  · rcases List.mem_append.mp hi with hi | hi
    · exact h.consumed_mem i hi
    · obtain rfl := List.mem_singleton.mp hi
      exact ⟨Int.lt_of_le_of_lt h.start_le hlt, hnext, e, hmem, rfl, hwanted⟩

/-- The follower is done with an element. -/
theorem Follows.advanced {f : Feed E} {e : E} {h' : Holding E} (h : Follows number wanted (f, h'))
    (hheld : h'.element? = some e) (hsub : h'.Subscribed) (resolved : List ℕ) :
    Follows number wanted ({ f with resolved := resolved }.advance number e, .ready) := by
  obtain ⟨-, hnext⟩ := h.held e hheld
  have hpos := @position_of_held E number h' e hheld f.cursor
  have hsent := h.sent hsub
  have hafter := h.stream_after
  dsimp only at hnext hsent hafter
  rw [hpos] at hsent hafter
  refine ⟨h.records, h.next, h.stream_history, h.stream_sorted, hafter, fun _ => hsent,
    fun _ he' => (by cases he'), h.consumed_sorted, fun i hi => ?_, fun _ i hi => ?_,
    fun j hj hle => ?_, ?_, fun hbefore => (by cases hbefore)⟩
  · obtain ⟨hstart, hle, hmem⟩ := h.consumed_mem i hi
    refine ⟨hstart, ?_, hmem⟩
    dsimp only [Feed.advance] at hle ⊢
    omega
  · exact (h.consumed_mem i hi).2.1.trans_eq hnext.symm
  · rcases Int.lt_or_eq_of_le hle with hlt | heq
    · refine List.mem_append_left _ (h.processed j hj ?_)
      dsimp only [Feed.advance] at hlt ⊢
      omega
    · exact List.mem_append_right _ (List.mem_singleton.mpr (Int.ofNat.inj heq))
  · have hle := h.start_le
    dsimp only [Feed.advance] at hle ⊢
    omega

/-- The cursor at the other end moves over all that is sent. -/
theorem le_sent {log : List E} {sent : ℤ} (hsorted : (after number log sent).Pairwise
    fun e e' => number e < number e') (hafter : ∀ e ∈ after number log sent, sent < number e) :
    let sent' := ((after number log sent).getLast?.map fun e => (number e : ℤ)).getD sent
    sent ≤ sent' ∧ ∀ e ∈ after number log sent, (number e : ℤ) ≤ sent' := by
  generalize after number log sent = sending at *
  cases sending using List.reverseRecOn with
  | nil => exact ⟨Int.le_refl _, fun _ h => by cases h⟩
  | append_singleton front e =>
    rw [List.getLast?_append, List.getLast?_singleton]
    refine ⟨(hafter e (by simp)).le, fun e' he' => ?_⟩
    rcases List.mem_append.mp he' with hfront | hlast
    · have hlt := (List.pairwise_append.mp hsorted).2.2 e' hfront e (List.mem_singleton_self e)
      exact Int.ofNat_le.mpr hlt.le
    · obtain rfl := List.mem_singleton.mp hlast
      exact Int.le_refl _

theorem Follows.sending {f : Feed E} {h' : Holding E} (h : Follows number wanted (f, h'))
    (hsub : h'.Subscribed) : Follows number wanted (f.send number, h') := by
  obtain ⟨hpos, hle⟩ := h.sent hsub
  obtain ⟨hread, hsorted⟩ := h.records.after f.sent
  obtain ⟨hgrow, hlast⟩ := le_sent hsorted fun e he => (hread e he).2
  refine ⟨h.records, h.next, fun e he => ?_, ?_, fun e he => ?_, fun _ => ⟨hpos.trans hgrow, fun e he => ?_⟩,
    h.held, h.consumed_sorted, h.consumed_mem, h.settled, h.processed, h.start_le, fun hbefore => ?_⟩
  · exact (List.mem_append.mp he).elim (h.stream_history e) fun he => (hread e he).1
  · refine List.pairwise_append.mpr ⟨h.stream_sorted, hsorted, fun e he e' he' => ?_⟩
    exact Int.ofNat_lt.mp (Int.lt_of_le_of_lt (hle e he) (hread e' he').2)
  · exact (List.mem_append.mp he).elim (h.stream_after e) fun he =>
      Int.lt_of_le_of_lt hpos (hread e he).2
  · exact (List.mem_append.mp he).elim (fun he => (hle e he).trans hgrow) (hlast e)
  · obtain rfl : h' = .before := hbefore
    exact hsub.elim

/-- **One move keeps the invariant.** -/
theorem Follows.move (h : Follows number wanted p) (hmove : Move number wanted lossy p q) :
    Follows number wanted q := by
  cases hmove with
  | append f h' e log hnumber hlog =>
    refine ⟨h.records.append (hnumber.trans h.next) hlog, ?_, fun e' he' => List.mem_append_left _ (h.stream_history e' he'),
      h.stream_sorted, h.stream_after, h.sent,
      fun e' he' => ⟨List.mem_append_left _ (h.held e' he').1, (h.held e' he').2⟩, h.consumed_sorted,
      fun i hi => (h.consumed_mem i hi).imp_right fun ⟨hle, e', he', hrest⟩ =>
        ⟨hle, e', List.mem_append_left _ he', hrest⟩,
      h.settled, h.processed, h.start_le, h.begun⟩
    rw [List.length_append, ← h.next]
    rfl
  | readCursor f =>
    obtain ⟨-, hstream, hconsumed⟩ := h.begun rfl
    refine ⟨h.records, h.next, h.stream_history, h.stream_sorted, fun e he => ?_, fun hsub => hsub.elim,
      fun _ he => (by cases he), h.consumed_sorted, fun i hi => ?_, fun _ i hi => ?_,
      fun j hj hle => absurd hj (Int.not_lt.mpr hle), Int.le_refl _, fun _ => ⟨rfl, hstream, hconsumed⟩⟩
    · rw [hstream] at he
      cases he
    · rw [hconsumed] at hi
      cases hi
    · rw [hconsumed] at hi
      cases hi
  | begin f =>
    exact ⟨h.records, h.next, h.stream_history, h.stream_sorted, h.stream_after, fun hsub => hsub.elim,
      fun _ he => (by cases he), h.consumed_sorted, h.consumed_mem, h.settled, h.processed, h.start_le,
      fun hbefore => (by cases hbefore)⟩
  | connect f =>
    exact ⟨h.records, h.next, fun _ he => (by cases he), List.Pairwise.nil, fun _ he => (by cases he),
      fun _ => ⟨Int.le_refl _, fun _ he => (by cases he)⟩, fun _ he => (by cases he), h.consumed_sorted,
      h.consumed_mem, h.settled, h.processed, h.start_le, fun hbefore => (by cases hbefore)⟩
  | send f h' hsub => exact h.sending hsub
  | leave f =>
    exact ⟨h.records, h.next, h.stream_history, h.stream_sorted, h.stream_after, fun hsub => hsub.elim,
      fun _ he => (by cases he), h.consumed_sorted, h.consumed_mem, h.settled, h.processed, h.start_le,
      fun hbefore => (by cases hbefore)⟩
  | refuse f e rest hstream =>
    obtain ⟨-, hlt, -, hrest, hsorted⟩ := h.head hstream
    exact ⟨h.records, h.next, fun e' he' => (hrest e' he').1, hsorted,
      fun e' he' => hlt.trans (Int.ofNat_lt.mpr (hrest e' he').2.1), fun hsub => hsub.elim,
      fun _ he => (by cases he), h.consumed_sorted, h.consumed_mem, h.settled, h.processed, h.start_le,
      fun hbefore => (by cases hbefore)⟩
  | take f e rest hstream hnext => exact h.taken hstream hnext (.request e) rfl trivial _
  | surface f e rest hstream hnext => exact h.taken hstream hnext (.request e) rfl trivial _
  | consume f e rest hstream hnext hwanted => exact h.consumed hstream hnext hwanted
  | pass f e rest hstream hnext => exact h.taken hstream hnext (.batch e) rfl trivial _
  | advance f e => exact h.advanced rfl trivial _
  | settle f e => exact h.advanced rfl trivial _
  | abandon f e =>
    exact ⟨h.records, h.next, h.stream_history, h.stream_sorted,
      fun e' he' => (cursor_le_position h).trans_lt (h.stream_after e' he'),
      fun hsub => hsub.elim, fun _ he => (by cases he), h.consumed_sorted, h.consumed_mem, h.settled,
      h.processed, h.start_le, fun hbefore => (by cases hbefore)⟩
  | stop f h' =>
    exact ⟨h.records, h.next, h.stream_history, h.stream_sorted,
      fun e' he' => (cursor_le_position h).trans_lt (h.stream_after e' he'),
      fun hsub => hsub.elim, fun _ he => (by cases he), h.consumed_sorted, h.consumed_mem,
      fun hsettled => hsettled.elim, h.processed, h.start_le, fun hbefore => (by cases hbefore)⟩

theorem Follows.moves (h : Follows number wanted p) (hmoves : Moves number wanted lossy p q) :
    Follows number wanted q := by
  induction hmoves with
  | refl => exact h
  | tail _ hmove ih => exact ih.move hmove

/-! ## What was evicted unread -/

/-- The follower has seen nothing as late as an unread element. -/
theorem Follows.lt_unread (h : Follows number wanted p) (hlost : Unread number lost p) :
    p.2.position number p.1.cursor < number lost := by
  cases he : p.2.element? with
  | none => simpa [Holding.position, he] using hlost.cursor
  | some e =>
    obtain ⟨hmem, hnext⟩ := h.held e he
    have hne : number e ≠ number lost := fun heq =>
      hlost.held (he.trans (congrArg some (h.records.unique hmem hlost.mem heq)))
    have hcursor := hlost.cursor
    rw [position_of_held he]
    omega

/-- **An unread element is never consumed**, nor is any after it. -/
theorem Follows.consumed_lt_unread (h : Follows number wanted p) (hlost : Unread number lost p) :
    ∀ i ∈ p.1.consumed, i < number lost := by
  intro i hi
  have hle := (h.consumed_mem i hi).2.1
  have hcursor := hlost.cursor
  have hne : i ≠ number lost := fun heq => hlost.consumed (heq ▸ hi)
  omega

/-- The element that is taken is another one. -/
theorem Follows.head_ne_unread {f : Feed E} {e : E} {rest : List E}
    (h : Follows number wanted (f, .ready)) (hstream : f.stream = e :: rest)
    (hlost : Unread number lost (f, .ready)) : number e ≠ number lost ∧ lost ∉ rest := by
  have hstream' : ∀ e' ∈ e :: rest, e' ≠ lost := fun e' he' heq =>
    hlost.stream (heq ▸ hstream ▸ he')
  exact ⟨fun heq => hstream' e List.mem_cons_self
    (h.records.unique (h.head hstream).1 hlost.mem heq),
    fun hin => hstream' lost (List.mem_cons_of_mem e hin) rfl⟩

theorem Unread.taken {f : Feed E} {e : E} {rest : List E} (hlost : Unread number lost (f, .ready))
    (h : Follows number wanted (f, .ready)) (hstream : f.stream = e :: rest) (h' : Holding E)
    (hbegun : h' ≠ .before) (hheld : ∀ e', h'.element? = some e' → e' = e) {consumed : List ℕ}
    (hconsumed : ∀ i ∈ consumed, i ∈ f.consumed ∨ i = number e) (surfaced : List ℕ) :
    Unread number lost
      ({ f with stream := rest, consumed := consumed, surfaced := surfaced }, h') where
  begun := hbegun
  mem := hlost.mem
  log := hlost.log
  stream := (h.head_ne_unread hstream hlost).2
  cursor := hlost.cursor
  held := fun heq => (h.head_ne_unread hstream hlost).1 (congrArg number (hheld lost heq)).symm
  consumed := fun hin => (hconsumed _ hin).elim hlost.consumed fun heq =>
    (h.head_ne_unread hstream hlost).1 heq.symm

/-- Done with an element, the follower has not yet come to an unread one. -/
theorem Unread.advanced {f : Feed E} {e : E} {h' : Holding E} (hlost : Unread number lost (f, h'))
    (h : Follows number wanted (f, h')) (hheld : h'.element? = some e) (resolved : List ℕ) :
    Unread number lost ({ f with resolved := resolved }.advance number e, .ready) where
  begun := fun hbefore => by cases hbefore
  mem := hlost.mem
  log := hlost.log
  stream := hlost.stream
  cursor := by
    have hlt := h.lt_unread hlost
    rwa [position_of_held hheld] at hlt
  held := fun heq => by cases heq
  consumed := hlost.consumed

/-- **What was evicted unread stays so.** -/
theorem Unread.move (hlost : Unread number lost p) (h : Follows number wanted p)
    (hmove : Move number wanted lossy p q) : Unread number lost q := by
  cases hmove with
  | append f h' e log hnumber hlog =>
    exact ⟨hlost.begun, List.mem_append_left _ hlost.mem,
      h.records.evicted hlost.mem hlost.log (hnumber.trans h.next) hlog, hlost.stream, hlost.cursor, hlost.held,
      hlost.consumed⟩
  | readCursor f => exact absurd rfl hlost.begun
  | begin f => exact absurd rfl hlost.begun
  | connect f =>
    exact ⟨fun hbefore => (by cases hbefore), hlost.mem, hlost.log, fun hin => (by cases hin),
      hlost.cursor, fun heq => (by cases heq), hlost.consumed⟩
  | send f h' hsub =>
    refine ⟨hlost.begun, hlost.mem, hlost.log, fun hin => ?_, hlost.cursor, hlost.held,
      hlost.consumed⟩
    exact (List.mem_append.mp hin).elim hlost.stream fun hin => hlost.log (List.mem_filter.mp hin).1
  | leave f =>
    exact ⟨fun hbefore => (by cases hbefore), hlost.mem, hlost.log, hlost.stream, hlost.cursor,
      fun heq => (by cases heq), hlost.consumed⟩
  | refuse f e rest hstream =>
    exact hlost.taken h hstream .apart (fun hbefore => (by cases hbefore)) (fun _ he => (by cases he))
      (fun i hi => .inl hi) _
  | take f e rest hstream hnext =>
    exact hlost.taken h hstream (.request e) (fun hbefore => (by cases hbefore))
      (fun _ he => (Option.some.inj he).symm) (fun i hi => .inl hi) _
  | surface f e rest hstream hnext =>
    exact hlost.taken h hstream (.request e) (fun hbefore => (by cases hbefore))
      (fun _ he => (Option.some.inj he).symm) (fun i hi => .inl hi) _
  | consume f e rest hstream hnext hwanted =>
    exact hlost.taken h hstream (.batch e) (fun hbefore => (by cases hbefore))
      (fun _ he => (Option.some.inj he).symm) (fun i hi => by simpa using hi) _
  | pass f e rest hstream hnext =>
    exact hlost.taken h hstream (.batch e) (fun hbefore => (by cases hbefore))
      (fun _ he => (Option.some.inj he).symm) (fun i hi => .inl hi) _
  | advance f e => exact hlost.advanced h rfl _
  | settle f e => exact hlost.advanced h rfl _
  | abandon f e =>
    exact ⟨fun hbefore => (by cases hbefore), hlost.mem, hlost.log, hlost.stream, hlost.cursor,
      fun heq => (by cases heq), hlost.consumed⟩
  | stop f h' =>
    exact ⟨fun hbefore => (by cases hbefore), hlost.mem, hlost.log, hlost.stream, hlost.cursor,
      fun heq => (by cases heq), hlost.consumed⟩

theorem Unread.moves (hlost : Unread number lost p) (h : Follows number wanted p)
    (hmoves : Moves number wanted lossy p q) : Unread number lost q := by
  induction hmoves with
  | refl => exact hlost
  | tail hmoves hmove ih => exact ih.move (h.moves hmoves) hmove

/-- The next element is unread, and the follower is at none. -/
structure Stalled (number : E → ℕ) (lost : E) (p : Feed E × Holding E) : Prop where
  unread : Unread number lost p
  next : (number lost : ℤ) = p.1.cursor + 1
  idle : p.2 = .apart ∨ p.2 = .ready ∨ p.2 = .over

/-- The follower can take no further element. -/
theorem Stalled.gap {f : Feed E} {e : E} {rest : List E} (hstalled : Stalled number lost (f, .ready))
    (h : Follows number wanted (f, .ready)) (hstream : f.stream = e :: rest) :
    f.cursor + 1 < number e := by
  have hlt := (h.head hstream).2.1
  have hne := (h.head_ne_unread hstream hstalled.unread).1
  have hnext := hstalled.next
  dsimp only at hnext
  omega

/-- **A stalled follower stays where it is.** -/
theorem Stalled.move (hstalled : Stalled number lost p) (h : Follows number wanted p)
    (hmove : Move number wanted lossy p q) : Stalled number lost q := by
  have hunread := hstalled.unread.move h hmove
  have hidle := hstalled.idle
  cases hmove with
  | append => exact ⟨hunread, hstalled.next, hstalled.idle⟩
  | readCursor f => exact absurd rfl hstalled.unread.begun
  | begin f => exact absurd rfl hstalled.unread.begun
  | connect f => exact ⟨hunread, hstalled.next, .inr (.inl rfl)⟩
  | send f h' hsub => exact ⟨hunread, hstalled.next, hstalled.idle⟩
  | leave f => exact ⟨hunread, hstalled.next, .inl rfl⟩
  | refuse f e rest hstream => exact ⟨hunread, hstalled.next, .inl rfl⟩
  | take f e rest hstream hnext => exact absurd (hstalled.gap h hstream) (not_lt.mpr hnext)
  | surface f e rest hstream hnext => exact absurd (hstalled.gap h hstream) (not_lt.mpr hnext)
  | consume f e rest hstream hnext => exact absurd (hstalled.gap h hstream) (not_lt.mpr hnext)
  | pass f e rest hstream hnext => exact absurd (hstalled.gap h hstream) (not_lt.mpr hnext)
  | advance f e => simp at hidle
  | settle f e => simp at hidle
  | abandon f e => simp at hidle
  | stop f h' => exact ⟨hunread, hstalled.next, .inr (.inr rfl)⟩

theorem Stalled.moves (hstalled : Stalled number lost p) (h : Follows number wanted p)
    (hmoves : Moves number wanted lossy p q) : Stalled number lost q := by
  induction hmoves with
  | refl => exact hstalled
  | tail hmoves hmove ih => exact ih.move (h.moves hmoves) hmove

/-! ## What is surfaced -/

theorem surfaced_init : Surfaced number ((Feed.init : Feed E), .before) :=
  ⟨List.nodup_nil, fun _ h => (by cases h), fun _ h => (by cases h), fun _ => ⟨rfl, rfl⟩⟩

/-- Where no element is held, all that was surfaced lies behind the cursor. -/
theorem Surfaced.behind_ready {f : Feed E} (hs : Surfaced number (f, .ready)) :
    ∀ i ∈ f.surfaced, (i : ℤ) ≤ f.cursor := by
  intro i hi
  rcases hs.behind i hi with hle | ⟨e, he, -⟩ | ⟨he, -⟩
  · exact hle
  · cases he
  · cases he

theorem Surfaced.advanced {f : Feed E} {e : E} {h' : Holding E} (hs : Surfaced number (f, h'))
    (h : Follows number wanted (f, h')) (hheld : h'.element? = some e) {resolved : List ℕ}
    (hresolved : ∀ i ∈ resolved, i ∈ f.resolved ∨ i = number e) :
    Surfaced number ({ f with resolved := resolved }.advance number e, .ready) := by
  have hnext := (h.held e hheld).2
  refine ⟨hs.nodup, fun i hi => .inl ?_, fun i hi => ?_, fun hbefore => (by cases hbefore)⟩
  · show (i : ℤ) ≤ number e
    rcases hs.behind i hi with hle | ⟨e', he', hnumber⟩ | ⟨hover, -⟩
    · dsimp only at hle hnext
      omega
    · obtain rfl : h' = .request e' := he'
      obtain rfl := Option.some.inj hheld
      exact Int.ofNat_le.mpr hnumber.ge
    · obtain rfl : h' = .over := hover
      cases hheld
  · show (i : ℤ) ≤ number e
    rcases hresolved i hi with hi | rfl
    · have hle := hs.resolved i hi
      dsimp only at hle hnext
      omega
    · exact le_rfl

/-- **A follower that loses nothing surfaces a request once**, and has it behind its cursor when it
is resolved. -/
theorem Surfaced.move (hs : Surfaced number p) (h : Follows number wanted p)
    (hmove : Move number wanted False p q) : Surfaced number q := by
  cases hmove with
  | append f h' e log hnumber hlog => exact ⟨hs.nodup, hs.behind, hs.resolved, hs.begun⟩
  | readCursor f =>
    obtain ⟨hsurfaced, hresolved⟩ := hs.begun rfl
    dsimp only at hsurfaced hresolved
    refine ⟨hs.nodup, fun i hi => ?_, fun i hi => ?_, hs.begun⟩
    · rw [hsurfaced] at hi
      cases hi
    · rw [hresolved] at hi
      cases hi
  | begin f =>
    obtain ⟨hsurfaced, -⟩ := hs.begun rfl
    refine ⟨hs.nodup, fun i hi => ?_, hs.resolved, fun hbefore => (by cases hbefore)⟩
    rw [hsurfaced] at hi
    cases hi
  | connect f =>
    refine ⟨hs.nodup, fun i hi => ?_, hs.resolved, fun hbefore => (by cases hbefore)⟩
    rcases hs.behind i hi with hle | ⟨e, he, -⟩ | ⟨he, -⟩
    · exact .inl hle
    · cases he
    · cases he
  | send f h' hsub => exact ⟨hs.nodup, hs.behind, hs.resolved, hs.begun⟩
  | leave f =>
    exact ⟨hs.nodup, fun i hi => .inl (hs.behind_ready i hi), hs.resolved,
      fun hbefore => (by cases hbefore)⟩
  | refuse f e rest hstream =>
    exact ⟨hs.nodup, fun i hi => .inl (hs.behind_ready i hi), hs.resolved,
      fun hbefore => (by cases hbefore)⟩
  | take f e rest hstream hnext =>
    exact ⟨hs.nodup, fun i hi => .inl (hs.behind_ready i hi), hs.resolved,
      fun hbefore => (by cases hbefore)⟩
  | surface f e rest hstream hnext =>
    have hnew : number e ∉ f.surfaced := fun hin =>
      absurd (hs.behind_ready _ hin) (not_le.mpr (h.head hstream).2.1)
    refine ⟨List.nodup_append.mpr ⟨hs.nodup, List.nodup_singleton _, fun i hi j hj hij => ?_⟩,
      fun i hi => ?_, hs.resolved, fun hbefore => (by cases hbefore)⟩
    · obtain rfl := List.mem_singleton.mp hj
      exact hnew (hij ▸ hi)
    · rcases List.mem_append.mp hi with hi | hi
      · exact .inl (hs.behind_ready i hi)
      · exact .inr (.inl ⟨e, rfl, (List.mem_singleton.mp hi).symm⟩)
  | consume f e rest hstream hnext hwanted =>
    exact ⟨hs.nodup, fun i hi => .inl (hs.behind_ready i hi), hs.resolved,
      fun hbefore => (by cases hbefore)⟩
  | pass f e rest hstream hnext =>
    exact ⟨hs.nodup, fun i hi => .inl (hs.behind_ready i hi), hs.resolved,
      fun hbefore => (by cases hbefore)⟩
  | advance f e => exact hs.advanced h rfl fun i hi => .inl hi
  | settle f e => exact hs.advanced h rfl fun i hi => by simpa using hi
  | abandon f e hlossy => exact hlossy.elim
  | stop f h' =>
    refine ⟨hs.nodup, fun i hi => ?_, hs.resolved, fun hbefore => (by cases hbefore)⟩
    rcases hs.behind i hi with hle | ⟨e, he, hnumber⟩ | ⟨hover, hnext⟩
    · exact .inl hle
    · obtain rfl : h' = .request e := he
      exact .inr (.inr ⟨rfl, by rw [← hnumber]; exact (h.held e rfl).2⟩)
    · exact .inr (.inr ⟨rfl, hnext⟩)

theorem Surfaced.moves (hs : Surfaced number p) (h : Follows number wanted p)
    (hmoves : Moves number wanted False p q) : Surfaced number q := by
  induction hmoves with
  | refl => exact hs
  | tail hmoves hmove ih => exact ih.move (h.moves hmoves) hmove

end Follower
