import CodexGateway.Library.JsonCut
import CodexGateway.Library.Lines

/-!
# Library/JsonAscii — a value printed with `ensure_ascii` is a line of ASCII

Every other character is escaped, in keys as in values, so the text has no line break of any kind
and survives any coding that keeps ASCII (`ascii_dumpsBy`).
-/

namespace PyJson

/-- A printable character of ASCII, or `DEL`. -/
def IsAscii (c : Char) : Prop := 0x20 ≤ c.toNat ∧ c.toNat < 0x80

theorem isBreak_of_isAscii {c : Char} (h : IsAscii c) : PyLines.isBreak c = false := by
  have hne : ∀ d : Char, d.toNat < 0x20 ∨ 0x80 ≤ d.toNat → c ≠ d := by
    rintro d hd rfl
    obtain ⟨hlow, hhigh⟩ := h
    omega
  simp [PyLines.isBreak, hne]

theorem isAscii_of_printed {x : Char} (h : Printed (fun c => c.toNat < 0x80) x) : IsAscii x :=
  ⟨h.1, h.2.elim id id⟩

theorem ascii_hexEscape {n : ℕ} (h : n < 0x10000) : ∀ x ∈ hexEscape n, IsAscii x := by
  intro x hx
  have hdigit : ∀ m : ℕ, IsAscii (hexChar (m % 16)) := fun m =>
    hexChar_ascii (m % 16) (Nat.mod_lt _ (by decide))
  simp only [hexEscape, List.mem_cons, List.not_mem_nil, or_false] at hx
  rcases hx with rfl | rfl | rfl | rfl | rfl | rfl
  · exact ⟨by decide, by decide⟩
  · exact ⟨by decide, by decide⟩
  · exact hexChar_ascii _ (by omega)
  · exact hdigit _
  · exact hdigit _
  · exact hdigit _

theorem ascii_escapeAscii (c : Char) : ∀ x ∈ escapeAscii c, IsAscii x := by
  intro x hx
  rw [escapeAscii] at hx
  split_ifs at hx with hascii hlow
  · exact isAscii_of_printed (printed_escape (show c.toNat < 0x80 by omega) x hx)
  · exact ascii_hexEscape hlow x hx
  · have hc : c.toNat < 0x110000 := by
      have hvalid : c.toNat < 0xD800 ∨ 0xDFFF < c.toNat ∧ c.toNat < 0x110000 := c.valid
      omega
    rcases List.mem_append.mp hx with hx | hx
    · exact ascii_hexEscape (by omega) x hx
    · exact ascii_hexEscape (by omega) x hx

section Values

variable {esc : Char → List Char}

theorem ascii_dumpsStringBy (hesc : ∀ c, ∀ x ∈ esc c, IsAscii x) (s : String) :
    ∀ x ∈ dumpsStringBy esc s, IsAscii x := by
  intro x hx
  rw [dumpsStringBy] at hx
  rcases List.mem_append.mp hx with hx | hx
  · rcases List.mem_cons.mp hx with rfl | hx
    · exact ⟨by decide, by decide⟩
    · obtain ⟨c, -, hc⟩ := List.mem_flatMap.mp hx
      exact hesc c x hc
  · obtain rfl := List.mem_singleton.mp hx
    exact ⟨by decide, by decide⟩

mutual

/-- **A value is printed in ASCII**, where the characters of its strings are. -/
theorem ascii_dumpsBy (hesc : ∀ c, ∀ x ∈ esc c, IsAscii x) : ∀ v : Json,
    ∀ x ∈ dumpsBy esc v, IsAscii x
  | .null, x, hx => isAscii_of_printed (printed_of_ascii rfl x hx)
  | .bool true, x, hx => isAscii_of_printed (printed_of_ascii rfl x hx)
  | .bool false, x, hx => isAscii_of_printed (printed_of_ascii rfl x hx)
  | .nan, x, hx => isAscii_of_printed (printed_of_ascii rfl x hx)
  | .infinity true, x, hx => isAscii_of_printed (printed_of_ascii rfl x hx)
  | .infinity false, x, hx => isAscii_of_printed (printed_of_ascii rfl x hx)
  | .int i, x, hx => by
      rw [dumpsBy, dumpsInt] at hx
      rcases List.mem_append.mp hx with hx | hx
      · exact isAscii_of_printed (printed_dumpsSign _ x hx)
      · exact isAscii_of_printed (printed_digits _ x hx)
  | .float d, x, hx => isAscii_of_printed (printed_dumpsDecimal d x hx)
  | .str s, x, hx => ascii_dumpsStringBy hesc s x hx
  | .arr [], x, hx => isAscii_of_printed (printed_of_ascii rfl x hx)
  | .arr (v :: vs), x, hx => by
      simp only [dumpsBy, List.mem_cons, List.mem_append] at hx
      rcases hx with rfl | hx | hx
      · exact ⟨by decide, by decide⟩
      · exact ascii_dumpsBy hesc v x hx
      · exact ascii_dumpsElementsBy hesc vs x hx
  | .obj [], x, hx => isAscii_of_printed (printed_of_ascii rfl x hx)
  | .obj ((k, v) :: ms), x, hx => by
      simp only [dumpsBy, List.mem_cons, List.mem_append] at hx
      rcases hx with rfl | hx | rfl | hx | hx
      · exact ⟨by decide, by decide⟩
      · exact ascii_dumpsStringBy hesc k x hx
      · exact ⟨by decide, by decide⟩
      · exact ascii_dumpsBy hesc v x hx
      · exact ascii_dumpsMembersBy hesc ms x hx

theorem ascii_dumpsElementsBy (hesc : ∀ c, ∀ x ∈ esc c, IsAscii x) : ∀ vs : List Json,
    ∀ x ∈ dumpsElementsBy esc vs, IsAscii x
  | [], x, hx => isAscii_of_printed (printed_of_ascii rfl x hx)
  | v :: vs, x, hx => by
      simp only [dumpsElementsBy, List.mem_cons, List.mem_append] at hx
      rcases hx with rfl | hx | hx
      · exact ⟨by decide, by decide⟩
      · exact ascii_dumpsBy hesc v x hx
      · exact ascii_dumpsElementsBy hesc vs x hx

theorem ascii_dumpsMembersBy (hesc : ∀ c, ∀ x ∈ esc c, IsAscii x) :
    ∀ ms : List (String × Json), ∀ x ∈ dumpsMembersBy esc ms, IsAscii x
  | [], x, hx => isAscii_of_printed (printed_of_ascii rfl x hx)
  | (k, v) :: ms, x, hx => by
      simp only [dumpsMembersBy, List.mem_cons, List.mem_append] at hx
      rcases hx with rfl | hx | rfl | hx | hx
      · exact ⟨by decide, by decide⟩
      · exact ascii_dumpsStringBy hesc k x hx
      · exact ⟨by decide, by decide⟩
      · exact ascii_dumpsBy hesc v x hx
      · exact ascii_dumpsMembersBy hesc ms x hx

end

end Values

end PyJson
