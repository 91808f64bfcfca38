/-
The order of keys and the order of octets.

Tables are listed by key, and keys are compared as texts are, character by character.  A
database on a disk compares the octets of texts instead.  The two orders are the same,
because the octets of a character grow with the character: `compare_encode`.  A character
that takes fewer octets starts with a smaller one, and among characters of the same number
of octets the first difference decides.
-/
import AccessStore.Kind
import AccessStore.Text.Octets
import Mathlib.Data.String.Basic
import Mathlib.Tactic.SplitIfs

namespace AccessStore

namespace Text

/-! ### Characters -/

theorem compare_append (p xs ys : List UInt8) : compare (p ++ xs) (p ++ ys) = compare xs ys := by
  induction p with
  | nil => rfl
  | cons x p ih =>
      rw [List.cons_append, List.cons_append, List.compare_cons_cons, ih, Std.ReflOrd.compare_self]
      rfl

theorem compare_ofNat {m n : Nat} (hm : m < 256) (hn : n < 256) :
    compare (UInt8.ofNat m) (UInt8.ofNat n) = compare m n := by
  have hlt : UInt8.ofNat m < UInt8.ofNat n ↔ m < n := by
    rw [UInt8.lt_iff_toNat_lt, UInt8.toNat_ofNat_of_lt' hm, UInt8.toNat_ofNat_of_lt' hn]
  have heq : UInt8.ofNat m = UInt8.ofNat n ↔ m = n := by
    rw [← UInt8.toNat_inj, UInt8.toNat_ofNat_of_lt' hm, UInt8.toNat_ofNat_of_lt' hn]
  show compareOfLessAndEq _ _ = compareOfLessAndEq _ _
  simp only [compareOfLessAndEq, hlt, heq]

/-- The octets of a smaller character come first, whatever follows. -/
theorem compare_encode {c d : Char} (h : c < d) (xs ys : List UInt8) :
    compare (String.utf8EncodeChar c ++ xs) (String.utf8EncodeChar d ++ ys) = .lt := by
  have hlt : c.val.toNat < d.val.toNat := h
  have hd : d.val.toNat < 0x110000 := by
    have hvalid : d.val.toNat < 0xD800 ∨ 0xDFFF < d.val.toNat ∧ d.val.toNat < 0x110000 := d.valid
    omega
  have hdigits (n : Nat) : n / 4096 = n / 64 / 64 ∧ n / 262144 = n / 64 / 64 / 64 := by
    rw [Nat.div_div_eq_div_mul, Nat.div_div_eq_div_mul]
    exact ⟨rfl, rfl⟩
  have hfirst {m n : Nat} (h : m < n) : m / 64 < n / 64 ∨ m / 64 = n / 64 ∧ m % 64 < n % 64 := by
    omega
  -- The place at which the digits to the base of 64 differ first.
  have hdiffer : c.val.toNat / 64 / 64 / 64 < d.val.toNat / 64 / 64 / 64 ∨
      c.val.toNat / 64 / 64 / 64 = d.val.toNat / 64 / 64 / 64 ∧
        (c.val.toNat / 64 / 64 % 64 < d.val.toNat / 64 / 64 % 64 ∨
          c.val.toNat / 64 / 64 = d.val.toNat / 64 / 64 ∧
            (c.val.toNat / 64 % 64 < d.val.toNat / 64 % 64 ∨
              c.val.toNat / 64 = d.val.toNat / 64 ∧ c.val.toNat % 64 < d.val.toNat % 64)) := by
    rcases hfirst hlt with h₁ | ⟨h₁, h₀⟩
    · rcases hfirst h₁ with h₂ | ⟨h₂, h₁'⟩
      · rcases hfirst h₂ with h₃ | ⟨h₃, h₂'⟩
        · exact .inl h₃
        · exact .inr ⟨h₃, .inl h₂'⟩
      · exact .inr ⟨by rw [h₂], .inr ⟨h₂, .inl h₁'⟩⟩
    · exact .inr ⟨by rw [h₁], .inr ⟨by rw [h₁], .inr ⟨h₁, h₀⟩⟩⟩
  simp only [String.utf8EncodeChar, hdigits]
  -- Four numbers of octets for each of the two; where they agree the digits are compared.
  split_ifs <;>
    simp (disch := omega) only [List.cons_append, List.nil_append, List.compare_cons_cons,
      Ordering.then_eq_lt, compare_ofNat, Nat.compare_eq_lt, Nat.compare_eq_eq] <;>
    omega

/-! ### Texts -/

theorem octetsOfChars_cons (c : Char) (cs : List Char) :
    octetsOfChars (c :: cs) = String.utf8EncodeChar c ++ octetsOfChars cs := rfl

theorem compare_octetsOfChars {cs ds : List Char} (h : cs < ds) :
    compare (octetsOfChars cs) (octetsOfChars ds) = .lt := by
  have hlex : List.Lex (· < ·) cs ds := h
  induction hlex with
  | @nil d ds =>
      rw [octetsOfChars_cons]
      cases hd : String.utf8EncodeChar d with
      | nil => simp [String.utf8EncodeChar_ne_nil] at hd
      | cons x xs => rfl
  | @cons c cs ds hlex ih =>
      rw [octetsOfChars_cons, octetsOfChars_cons, compare_append]
      exact ih hlex
  | @rel c cs d ds hcd => exact compare_encode hcd _ _

/-- **Texts are in the order of their octets.** -/
theorem compare_octets (s t : String) : compare (octets s) (octets t) = compare s t := by
  have hless {s t : String} (h : s < t) : compare (octets s) (octets t) = .lt :=
    compare_octetsOfChars (String.lt_iff_toList_lt.mp h)
  have hcompare : compare s t = compareOfLessAndEq s t := rfl
  rw [hcompare, compareOfLessAndEq]
  split
  · rename_i h
    exact hless h
  · split
    · rename_i h
      rw [h, Std.ReflOrd.compare_self]
    · rename_i hnot hne
      have h : t < s := lt_of_le_of_ne (not_lt.mp hnot) (Ne.symm hne)
      exact Std.OrientedCmp.gt_iff_lt.mpr (hless h)

end Text

/-! ### Keys -/

/-- The octets of a key, column by column. -/
def Key.octets (key : Key) : List (List UInt8) := key.map Text.octets

/-- **Keys are in the order of their octets.** -/
theorem Key.compare_octets (k l : Key) : compare k.octets l.octets = compare k l := by
  induction k generalizing l with
  | nil => cases l <;> rfl
  | cons s k ih =>
      cases l with
      | nil => rfl
      | cons t l =>
          show compare (Text.octets s :: Key.octets k) (Text.octets t :: Key.octets l) = _
          rw [List.compare_cons_cons, List.compare_cons_cons, Text.compare_octets, ih]

end AccessStore
