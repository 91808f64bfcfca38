/-
Versions as texts.

A version that can be stored is written in decimal digits and nothing else, so trimming
takes nothing off its text, no sign is in the way, and reading the digits gives the number
back: `ofText?_text`.  The only numbers that are not read back are those that no row of a
sound database has.
-/
import AccessStore.Proofs.ReadBack
import AccessStore.Proofs.Trimming

namespace AccessStore

namespace Text

theorem isBlank_eq_false_of_isDigit {c : Char} (h : c.isDigit = true) : isBlank c = false := by
  have hcode : 48 ≤ c.toNat ∧ c.toNat ≤ 57 := by
    simp only [Char.isDigit, Bool.and_eq_true, decide_eq_true_eq] at h
    exact ⟨UInt32.le_iff_toNat_le.mp h.1, UInt32.le_iff_toNat_le.mp h.2⟩
  simp [isBlank, blankRanges]
  omega

/-- Digits do not start with a sign. -/
theorem head?_ne_plus {digits : List Char} (h : ∀ d ∈ digits, d.isDigit = true) :
    digits.head? ≠ some '+' := by
  intro hhead
  have hdigit := h '+' (List.mem_of_head? hhead)
  revert hdigit
  decide

/-- Where no character is blank, trimming takes nothing off. -/
theorem trimChars_of_not_blank {cs : List Char} (h : ∀ c ∈ cs, isBlank c = false) :
    trimChars cs = cs := by
  have htrimmed : Trimmed ([] ++ (cs ++ [])) cs := trimmed_of_not_blank (by simp) (by simp) h
  rw [List.nil_append, List.append_nil] at htrimmed
  exact htrimmed.trimChars_eq

end Text

namespace Version

/-- The version can be stored: a row can have it, and a text can name it. -/
def IsStorable (v : Version) : Prop := 1 ≤ v.number ∧ v.number ≤ largest

/-- A number that can be stored is read from its digits. -/
theorem ofTrimmed?_toDigits {n : Nat} (hpos : 0 < n) (hlarge : n ≤ largest) :
    ofTrimmed? (Nat.toDigits 10 n) = some ⟨n⟩ := by
  have hdigit : ∀ c ∈ Nat.toDigits 10 n, c.isDigit = true := fun _ => Text.isDigit_of_mem_toDigits
  have hsign : (Nat.toDigits 10 n).head? ≠ some '+' := Text.head?_ne_plus hdigit
  have hsome : Nat.toDigits 10 n ≠ [] := Nat.toDigits_ne_nil
  have hall : (Nat.toDigits 10 n).all Char.isDigit = true := List.all_eq_true.mpr hdigit
  rw [ofTrimmed?]
  simp only [if_neg hsign, Text.digitsValue_toDigits]
  rw [if_pos ⟨hsome, hall, hpos, hlarge⟩]

/-- **A version is read back from its text.** -/
theorem ofText?_text {v : Version} (h : v.IsStorable) : ofText? v.text = some v := by
  obtain ⟨number⟩ := v
  obtain ⟨hpos, hlarge⟩ : 1 ≤ number ∧ number ≤ largest := h
  obtain ⟨n, rfl⟩ : ∃ n : Nat, number = n := Int.eq_ofNat_of_zero_le (by omega)
  have hchars : (text ⟨n⟩).toList = Nat.toDigits 10 n := by
    rw [text, Text.decimal, String.toList_ofList]
    rfl
  have hblank : ∀ c ∈ Nat.toDigits 10 n, Text.isBlank c = false := fun c hc =>
    Text.isBlank_eq_false_of_isDigit (Text.isDigit_of_mem_toDigits hc)
  rw [ofText?, hchars, Text.trimChars_of_not_blank hblank]
  exact ofTrimmed?_toDigits (by omega) (by omega)

theorem parse_text {v : Version} (h : v.IsStorable) : parse v.text = .ok v := by
  rw [parse, ofText?_text h]

/-- A version that can be stored is read from the document it is written as. -/
theorem decode_node {v : Version} (h : v.IsStorable) : decode v.value.node = .ok v := parse_text h

theorem isReadable {version : Option Version} (h : ∀ v, version = some v → v.IsStorable) :
    IsReadable version := fun v hv => decode_node (h v hv)

end Version

end AccessStore
