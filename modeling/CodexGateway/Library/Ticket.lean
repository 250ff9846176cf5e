import Mathlib.Data.Int.Order.Basic
import Mathlib.Tactic.Common

/-!
# Library/Ticket — tickets that are used once

A table keeps the tickets used so far, each until it expires: using one first drops what has
expired, and fails when the ticket is still there.  A ticket used once and not yet expired is in the
table (`Spent`), whatever other tickets are used, so it cannot be used again before its expiry.
-/

namespace Ticket

variable {K : Type}

/-- A ticket that was used, with the end of its validity. -/
structure Row (K : Type) where
  key : K
  expiresAt : ℤ
  deriving DecidableEq

/-- The rows whose tickets are still valid. -/
def purge (rows : List (Row K)) (now : ℤ) : List (Row K) := rows.filter (now < ·.expiresAt)

/-- The table afterwards, and whether the ticket was still unused. -/
def consume [DecidableEq K] (rows : List (Row K)) (key : K) (expiresAt now : ℤ) :
    List (Row K) × Bool :=
  if (purge rows now).any (·.key = key) then (purge rows now, false)
  else (purge rows now ++ [⟨key, expiresAt⟩], true)

/-- At `clock` the ticket has been used, or has expired. -/
def Spent (clock : ℤ) (rows : List (Row K)) (key : K) (expiresAt : ℤ) : Prop :=
  expiresAt ≤ clock ∨ ⟨key, expiresAt⟩ ∈ rows

variable {rows : List (Row K)} {key : K} {expiresAt clock now : ℤ}

theorem mem_purge {row : Row K} : row ∈ purge rows now ↔ row ∈ rows ∧ now < row.expiresAt := by
  simp [purge]

theorem Spent.mono {later : ℤ} (h : Spent clock rows key expiresAt) (hle : clock ≤ later) :
    Spent later rows key expiresAt := h.imp_left fun hexpired => le_trans hexpired hle

theorem Spent.purge (h : Spent clock rows key expiresAt) (hle : clock ≤ now) :
    Spent now (purge rows now) key expiresAt := by
  rcases lt_or_ge now expiresAt with hlt | hge
  · refine .inr (mem_purge.mpr ⟨h.resolve_left fun hexpired => ?_, hlt⟩)
    exact absurd (le_trans hexpired hle) (not_le.mpr hlt)
  · exact .inl hge

variable [DecidableEq K]

/-- **What is spent stays spent**, whatever ticket is used. -/
theorem Spent.consume (h : Spent clock rows key expiresAt) (hle : clock ≤ now) (other : K)
    (otherExpiry : ℤ) : Spent now (consume rows other otherExpiry now).1 key expiresAt := by
  have hpurged := h.purge hle
  unfold Ticket.consume
  split_ifs
  · exact hpurged
  · exact hpurged.imp_right fun hmem => List.mem_append_left _ hmem

/-- A ticket that was used is spent. -/
theorem spent_consume (h : (consume rows key expiresAt now).2 = true) :
    Spent now (consume rows key expiresAt now).1 key expiresAt := by
  unfold Ticket.consume at h ⊢
  split_ifs at h ⊢
  exact .inr (List.mem_append_right _ List.mem_cons_self)

/-- **A spent ticket cannot be used before it expires.** -/
theorem Spent.refused (h : Spent clock rows key expiresAt) (hle : clock ≤ now)
    (hnow : now < expiresAt) (expiry : ℤ) : (Ticket.consume rows key expiry now).2 = false := by
  have hmem : ⟨key, expiresAt⟩ ∈ Ticket.purge rows now :=
    (h.purge hle).resolve_left (not_le.mpr hnow)
  unfold Ticket.consume
  rw [if_pos (List.any_eq_true.mpr ⟨_, hmem, by simp⟩)]

end Ticket
