import Mathlib.Data.List.Basic
import Mathlib.Tactic.Common

/-!
# Library/Calls — calls whose answers come back by number

Calls are numbered as they are made, and wait; each message that is heard is for one number or for
none.  A message takes the call of its number from those that wait and settles its future, if
nothing else has done so before.

So a call is answered by the first message for its number since it was made (`Sound`), a future that
is settled stays as it is (`Grows`), and one that is not settled waits (`Held`): it is settled where
all that wait are failed.
-/

/-- What a future holds. -/
inductive Future (M E : Type) where
  | pending
  | answered (message : M)
  | failed (error : E)
  deriving DecidableEq

/-- A call, which was made when `since` messages had been heard. -/
structure Call (T M E : Type) where
  tag : T
  since : ℕ
  future : Future M E

/-- Settles a future that is not settled. -/
def Call.settle {T M E : Type} (call : Call T M E) (future : Future M E) : Call T M E :=
  match call.future with
  | .pending => { call with future := future }
  | _ => call

/-- The calls by their numbers, the numbers of those that wait, and the messages so far. -/
structure Calls (T M E : Type) where
  calls : List (Call T M E)
  waiting : List ℕ
  heard : List M

namespace Calls

section Operations

variable {T M E : Type} (c : Calls T M E) (number : M → Option ℕ)

/-- Before the first call. -/
def empty : Calls T M E := ⟨[], [], []⟩

/-- The futures of some calls are settled. -/
def settle (p : ℕ → Bool) (future : Future M E) : Calls T M E :=
  { c with calls := c.calls.mapIdx fun n call => if p n then call.settle future else call }

/-- A call is not waited for any more. -/
def forget (n : ℕ) : Calls T M E := { c with waiting := c.waiting.filter (· ≠ n) }

/-- A call is made. -/
def make (tag : T) : Calls T M E :=
  { c with
    calls := c.calls ++ [⟨tag, c.heard.length, .pending⟩]
    waiting := c.waiting ++ [c.calls.length] }

/-- A message is heard, and the call that waits for it is answered. -/
def hear (message : M) : Calls T M E :=
  let heard : Calls T M E := { c with heard := c.heard ++ [message] }
  match number message with
  | none => heard
  | some n =>
    if n ∈ c.waiting then (heard.settle (· = n) (.answered message)).forget n else heard

/-- The call is failed, and is not waited for. -/
def fail (n : ℕ) (error : E) : Calls T M E := (c.settle (· = n) (.failed error)).forget n

/-- Whatever waits fails. -/
def failAll (error : E) : Calls T M E :=
  { c.settle (· ∈ c.waiting) (.failed error) with waiting := [] }

/-! ## What is meant -/

/-- The first message for a number. -/
def First (n : ℕ) (message : M) (messages : List M) : Prop :=
  ∃ xs ys, messages = xs ++ message :: ys ∧ number message = some n ∧
    ∀ other ∈ xs, number other ≠ some n

/-- A call that waits has not been answered yet, and an answer is the first one since. -/
structure SoundAt (n : ℕ) (call : Call T M E) : Prop where
  since : call.since ≤ c.heard.length
  unheard : n ∈ c.waiting → ∀ message ∈ c.heard.drop call.since, number message ≠ some n
  answered : ∀ message, call.future = .answered message →
    First number n message (c.heard.drop call.since)

/-- Every call is sound. -/
def Sound : Prop := ∀ n call, c.calls[n]? = some call → c.SoundAt number n call

/-- A future that is not settled waits. -/
def Held : Prop := ∀ n call, c.calls[n]? = some call → call.future = .pending → n ∈ c.waiting

/-- Calls stay, and what is settled is so for good. -/
structure Grows (c c' : Calls T M E) : Prop where
  calls : ∀ (n : ℕ) (call : Call T M E), c.calls[n]? = some call →
    ∃ call' : Call T M E, c'.calls[n]? = some call' ∧ call'.tag = call.tag ∧
      (call.future ≠ .pending → call' = call)

end Operations

variable {T M E : Type} {c c' c'' : Calls T M E} {number : M → Option ℕ} {n k : ℕ}
  {call : Call T M E} {tag : T} {message : M} {future : Future M E} {error : E} {p : ℕ → Bool}

/-! ## Settling a future -/

/-- A call that is settled was pending, or stays as it is. -/
theorem settle_cases (call : Call T M E) (future : Future M E) :
    call.future = .pending ∧ call.settle future = { call with future := future } ∨
      call.future ≠ .pending ∧ call.settle future = call := by
  rw [Call.settle]
  cases call.future with
  | pending => exact .inl ⟨rfl, rfl⟩
  | answered message => exact .inr ⟨by simp, rfl⟩
  | failed error => exact .inr ⟨by simp, rfl⟩

/-- What is settled, and what it was. -/
theorem settle_eq_some {call' : Call T M E} (h : (c.settle p future).calls[n]? = some call') :
    ∃ call, c.calls[n]? = some call ∧
      (call' = call ∧ (p n = true → call.future ≠ .pending) ∨
        p n = true ∧ call.future = .pending ∧ call' = { call with future := future }) := by
  rw [settle, List.getElem?_mapIdx] at h
  obtain ⟨call, hcall, rfl⟩ := Option.map_eq_some_iff.mp h
  refine ⟨call, hcall, ?_⟩
  split_ifs with hp
  · rcases settle_cases call future with ⟨hpending, hsettle⟩ | ⟨hdone, hsettle⟩
    · exact .inr ⟨hp, hpending, hsettle⟩
    · exact .inl ⟨hsettle, fun _ => hdone⟩
  · exact .inl ⟨rfl, fun h => absurd h hp⟩

/-- Calls grow into themselves. -/
theorem grows_refl (c : Calls T M E) : Grows c c where
  calls _ call h := ⟨call, h, rfl, fun _ => rfl⟩

/-- What grows twice has grown. -/
theorem Grows.trans (h : Grows c c') (h' : Grows c' c'') : Grows c c'' where
  calls n call hcall := by
    obtain ⟨call', hcall', htag, hsettled⟩ := h.calls n call hcall
    obtain ⟨call'', hcall'', htag', hsettled'⟩ := h'.calls n call' hcall'
    refine ⟨call'', hcall'', htag'.trans htag, fun hne => ?_⟩
    obtain rfl := hsettled hne
    exact hsettled' hne

/-- No call is taken away. -/
theorem Grows.length_le (h : Grows c c') : c.calls.length ≤ c'.calls.length := by
  by_contra hlt
  have hlt := Nat.lt_of_not_le hlt
  obtain ⟨call', hcall', -⟩ := h.calls _ _ (List.getElem?_eq_getElem hlt)
  exact absurd (List.getElem?_eq_some_iff.mp hcall').1 (Nat.lt_irrefl _)

/-- Only who waits, and what has been heard, is changed. -/
theorem Grows.of_eq (h : c'.calls = c.calls) : Grows c c' where
  calls _ call hcall := ⟨call, h ▸ hcall, rfl, fun _ => rfl⟩

/-- A future that is settled stays so. -/
theorem grows_settle : Grows c (c.settle p future) where
  calls n call hcall := by
    refine ⟨if p n then call.settle future else call, ?_, ?_⟩
    · rw [settle, List.getElem?_mapIdx, hcall]
      rfl
    · split_ifs
      · rcases settle_cases call future with ⟨hpending, hsettle⟩ | ⟨-, hsettle⟩
        · rw [hsettle]
          exact ⟨rfl, fun hne => absurd hpending hne⟩
        · rw [hsettle]
          exact ⟨rfl, fun _ => rfl⟩
      · exact ⟨rfl, fun _ => rfl⟩

/-- A call that is made comes last. -/
theorem grows_make : Grows c (c.make tag) where
  calls n call hcall := by
    have hlt := (List.getElem?_eq_some_iff.mp hcall).1
    exact ⟨call, by rw [make, List.getElem?_append_left hlt, hcall], rfl, fun _ => rfl⟩

/-- A message that is heard settles at most. -/
theorem grows_hear : Grows c (c.hear number message) := by
  rw [hear]
  split
  · exact .of_eq rfl
  · split_ifs
    · exact (Grows.of_eq rfl).trans (grows_settle.trans (.of_eq rfl))
    · exact .of_eq rfl

/-- A call that fails is settled. -/
theorem grows_fail : Grows c (c.fail n error) := grows_settle.trans (.of_eq rfl)

/-- Calls that fail are settled. -/
theorem grows_failAll : Grows c (c.failAll error) := grows_settle.trans (.of_eq rfl)

/-! ## How many there are -/

/-- Settling makes no call. -/
@[simp]
theorem length_settle : (c.settle p future).calls.length = c.calls.length := List.length_mapIdx

/-- A failure makes no call. -/
@[simp]
theorem length_fail : (c.fail n error).calls.length = c.calls.length := length_settle

/-- Failures make no call. -/
@[simp]
theorem length_failAll : (c.failAll error).calls.length = c.calls.length := length_settle

/-- A message makes no call. -/
@[simp]
theorem length_hear : (c.hear number message).calls.length = c.calls.length := by
  rw [hear]
  split
  · rfl
  · split_ifs
    · exact length_settle
    · rfl

/-- The message is heard. -/
@[simp]
theorem heard_hear : (c.hear number message).heard = c.heard ++ [message] := by
  rw [hear]
  split
  · rfl
  · split_ifs
    · rfl
    · rfl

/-- The call that is made is the last one. -/
theorem getElem?_make :
    (c.make tag).calls[c.calls.length]? = some ⟨tag, c.heard.length, .pending⟩ := by
  rw [make, List.getElem?_append_right (Nat.le_refl _), Nat.sub_self]
  rfl

/-! ## Whose future is not settled waits -/

/-- A call that is forgotten waits no more, and the others do. -/
theorem mem_forget : k ∈ (c.forget n).waiting ↔ k ∈ c.waiting ∧ k ≠ n := by
  simp [forget]

/-- Nothing waits before the first call. -/
theorem held_empty : (empty : Calls T M E).Held := fun n call h => by simp [empty] at h

/-- The calls once one more is made. -/
theorem make_eq_some (h : (c.make tag).calls[n]? = some call) :
    c.calls[n]? = some call ∨ n = c.calls.length ∧ call = ⟨tag, c.heard.length, .pending⟩ := by
  rw [make, List.getElem?_append] at h
  split_ifs at h with hlt
  · exact .inl h
  · obtain ⟨hle, hcall⟩ := List.getElem?_eq_some_iff.mp h
    have hzero : n - c.calls.length = 0 := Nat.lt_one_iff.mp hle
    refine .inr ⟨by omega, ?_⟩
    simpa [hzero] using hcall.symm

/-- A call that is made waits, and is pending. -/
theorem Held.make (h : c.Held) : (c.make tag).Held := by
  intro n call hcall hpending
  rcases make_eq_some hcall with hold | ⟨rfl, -⟩
  · exact List.mem_append_left _ (h n call hold hpending)
  · exact List.mem_append_right _ List.mem_cons_self

/-- What is settled need not wait. -/
theorem Held.forget_settle (h : c.Held) (hfuture : future ≠ .pending) :
    ((c.settle (· = n) future).forget n).Held := by
  intro k call hcall hpending
  obtain ⟨before, hbefore, ⟨rfl, hdone⟩ | ⟨-, -, rfl⟩⟩ := settle_eq_some hcall
  · refine mem_forget.mpr ⟨h k call hbefore hpending, ?_⟩
    rintro rfl
    exact hdone (decide_eq_true rfl) hpending
  · exact absurd hpending hfuture

/-- A call that fails is pending no more. -/
theorem Held.fail (h : c.Held) : (c.fail n error).Held := h.forget_settle (by simp)

/-- A call that is settled is pending no more. -/
theorem Held.settle (h : c.Held) (hfuture : future ≠ .pending) : (c.settle p future).Held := by
  intro k call hcall hpending
  obtain ⟨before, hbefore, ⟨rfl, -⟩ | ⟨-, -, rfl⟩⟩ := settle_eq_some hcall
  · exact h k call hbefore hpending
  · exact absurd hpending hfuture

/-- A call whose answer is heard is pending no more. -/
theorem Held.hear (h : c.Held) : (c.hear number message).Held := by
  rw [Calls.hear]
  split
  · exact h
  · split_ifs
    · have hheard : ({ c with heard := c.heard ++ [message] } : Calls T M E).Held := h
      exact hheard.forget_settle (by simp)
    · exact h

/-- **Where all that wait fail, every future is settled.** -/
theorem Held.settled_failAll (h : c.Held) (hcall : (c.failAll error).calls[n]? = some call) :
    call.future ≠ .pending := by
  intro hpending
  obtain ⟨before, hbefore, ⟨rfl, hdone⟩ | ⟨-, -, rfl⟩⟩ := settle_eq_some hcall
  · exact hdone (decide_eq_true (h n call hbefore hpending)) hpending
  · cases hpending

/-- Calls that fail together are pending no more. -/
theorem Held.failAll (h : c.Held) : (c.failAll error).Held := fun _ _ hcall hpending =>
  absurd hpending (h.settled_failAll hcall)

/-! ## An answer is the first message for its call -/

/-- The first message with a number stays the first. -/
theorem First.append {messages : List M} (h : First number n message messages)
    (later : List M) : First number n message (messages ++ later) := by
  obtain ⟨xs, ys, rfl, hnumber, hxs⟩ := h
  exact ⟨xs, ys ++ later, by rw [List.append_assoc, List.cons_append], hnumber, hxs⟩

/-- Before the first call there is nothing to answer. -/
theorem sound_empty : (empty : Calls T M E).Sound number := fun n call h => by simp [empty] at h

/-- A call that is made has no answer yet. -/
theorem Sound.make (h : c.Sound number) : (c.make tag).Sound number := by
  intro n call hcall
  rcases make_eq_some hcall with hold | ⟨rfl, rfl⟩
  · have hlt := (List.getElem?_eq_some_iff.mp hold).1
    refine ⟨(h n call hold).since, fun hwaiting => (h n call hold).unheard ?_,
      (h n call hold).answered⟩
    rcases List.mem_append.mp hwaiting with hmem | hmem
    · exact hmem
    · exact absurd (List.mem_singleton.mp hmem) (Nat.ne_of_lt hlt)
  · refine ⟨Nat.le_refl _, fun _ message hmem => ?_, fun message hanswered => by cases hanswered⟩
    have hnil : c.heard.drop c.heard.length = [] := List.drop_length
    rw [Calls.make, hnil] at hmem
    cases hmem

/-- What waits is asked of fewer calls. -/
theorem Sound.settle (h : c.Sound number) (herror : ∀ message, future ≠ .answered message)
    {waiting : List ℕ} (hwaiting : ∀ n ∈ waiting, n ∈ c.waiting) :
    ({ c.settle p future with waiting := waiting } : Calls T M E).Sound number := by
  intro n call hcall
  obtain ⟨before, hbefore, ⟨rfl, -⟩ | ⟨-, -, rfl⟩⟩ := settle_eq_some hcall
  · exact ⟨(h n call hbefore).since, fun hmem => (h n call hbefore).unheard (hwaiting n hmem),
      (h n call hbefore).answered⟩
  · exact ⟨(h n before hbefore).since,
      fun hmem => (h n before hbefore).unheard (hwaiting n hmem),
      fun message hanswered => absurd hanswered (herror message)⟩

/-- A failure gives no call an answer. -/
theorem Sound.fail (h : c.Sound number) : (c.fail n error).Sound number :=
  h.settle (fun _ => by simp) fun _ hmem => (List.mem_filter.mp hmem).1

/-- Failures give no call an answer. -/
theorem Sound.failAll (h : c.Sound number) : (c.failAll error).Sound number :=
  h.settle (fun _ => by simp) fun _ hmem => absurd hmem List.not_mem_nil

/-- A message that is not for the call. -/
theorem SoundAt.hear {heard : Calls T M E} (h : c.SoundAt number n call)
    (hheard : heard.heard = c.heard ++ [message])
    (hwaiting : n ∈ heard.waiting → n ∈ c.waiting ∧ number message ≠ some n) :
    heard.SoundAt number n call := by
  have hdrop : heard.heard.drop call.since = c.heard.drop call.since ++ [message] := by
    rw [hheard, List.drop_append_of_le_length h.since]
  refine ⟨?_, fun hmem other hother => ?_, fun answer hanswer => ?_⟩
  · rw [hheard, List.length_append]
    exact Nat.le_trans h.since (Nat.le_add_right _ _)
  · rw [hdrop] at hother
    rcases List.mem_append.mp hother with hold | hnew
    · exact h.unheard (hwaiting hmem).1 other hold
    · exact List.mem_singleton.mp hnew ▸ (hwaiting hmem).2
  · rw [hdrop]
    exact (h.answered answer hanswer).append _

/-- **A message that is heard answers the call of its number, and no other.** -/
theorem Sound.hear (h : c.Sound number) : (c.hear number message).Sound number := by
  rw [Calls.hear]
  split
  · rename_i hnumber
    exact fun n call hcall => (h n call hcall).hear rfl fun hmem => ⟨hmem, by simp [hnumber]⟩
  · rename_i n hnumber
    split_ifs with hwaiting
    · intro k call hcall
      have hforget (before : Call T M E) (hbefore : c.SoundAt number k before) :
          Calls.SoundAt (((({ c with heard := c.heard ++ [message] } : Calls T M E).settle
            (· = n) (.answered message)).forget n)) number k before := by
        refine hbefore.hear rfl fun hmem => ?_
        obtain ⟨hmem, hne⟩ := mem_forget.mp hmem
        exact ⟨hmem, fun heq => hne (Option.some.inj (hnumber.symm.trans heq)).symm⟩
      obtain ⟨before, hbefore, ⟨rfl, -⟩ | ⟨hsame, -, rfl⟩⟩ := settle_eq_some hcall
      · exact hforget _ (h k _ hbefore)
      · obtain rfl : k = n := of_decide_eq_true hsame
        have hsound := h k before hbefore
        refine ⟨(hforget before hsound).since, (hforget before hsound).unheard,
          fun answer hanswer => ?_⟩
        obtain rfl := Future.answered.inj hanswer
        refine ⟨c.heard.drop before.since, [], ?_, hnumber, hsound.unheard hwaiting⟩
        exact List.drop_append_of_le_length hsound.since
    · intro k call hcall
      refine (h k call hcall).hear rfl fun hmem => ⟨hmem, fun heq => hwaiting ?_⟩
      exact Option.some.inj (hnumber.symm.trans heq) ▸ hmem

end Calls
