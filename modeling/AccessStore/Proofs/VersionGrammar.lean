/-
Which texts name versions.

A text names a version if it is digits, perhaps after a plus sign and with blank characters around it, and the
number that the digits denote is one from 1 to 2^63 - 1.  There are no other such texts and there is no limit
to their length, for any number of zeros may come first; `Version.parse_ok_iff` has both directions.  The
versions in the documents of records are these texts too, however the document spells them.
-/
import Mathlib.Data.List.TakeWhile
import Mathlib.Data.Nat.Digits.Defs
import AccessStore.Proofs.FieldValues
import AccessStore.Proofs.Rearranging
import AccessStore.Proofs.VersionText

namespace AccessStore

open Json

namespace Text

/-! ### Digits -/

/-- The number that digits denote: the last one counts once, and each one before ten times as much as the
next. -/
def denoted (digits : List Char) : Nat :=
  Nat.ofDigits 10 (digits.reverse.map fun d => d.toNat - '0'.toNat)

theorem digitsValue_eq_denoted (digits : List Char) : digitsValue digits = denoted digits := by
  rw [digitsValue, denoted]
  induction digits with
  | nil => rfl
  | cons d digits ih =>
      rw [Nat.ofDigitChars_cons, Nat.ofDigitChars_eq_ofDigitChars_zero, ih, List.reverse_cons,
        List.map_append, Nat.ofDigits_append, List.length_map, List.length_reverse, List.map_singleton,
        Nat.ofDigits_singleton, Nat.mul_zero, Nat.zero_add, Nat.add_comm]

end Text

namespace Version

variable {s : String} {n : Nat} {v : Version}

/-! ### The grammar -/

/-- The text is blank characters, at most one plus sign, digits that denote the number, and blank characters
again. -/
def Denotes (s : String) (n : Nat) : Prop :=
  ∃ before sign digits after, s.toList = before ++ (sign ++ digits ++ after) ∧
    (∀ c ∈ before, Text.isBlank c = true) ∧ (sign = [] ∨ sign = ['+']) ∧ digits ≠ [] ∧
    (∀ d ∈ digits, d.isDigit = true) ∧ (∀ c ∈ after, Text.isBlank c = true) ∧ n = Text.denoted digits

/-- What is asked of the digits after the sign. -/
theorem ofTrimmed?_append {sign digits : List Char} (hsign : sign = [] ∨ sign = ['+'])
    (hplus : sign = [] → digits.head? ≠ some '+') :
    ofTrimmed? (sign ++ digits) = if digits ≠ [] ∧ digits.all Char.isDigit = true ∧
      0 < Text.denoted digits ∧ Text.denoted digits ≤ largest then some ⟨Text.denoted digits⟩ else none := by
  have hrest : (if (sign ++ digits).head? = some '+' then (sign ++ digits).tail else sign ++ digits)
      = digits := by
    rcases hsign with rfl | rfl
    · rw [List.nil_append, if_neg (hplus rfl)]
    · rfl
  simp only [ofTrimmed?, hrest, Text.digitsValue_eq_denoted]

/-- Without blank characters around it a version is at most one plus sign and digits. -/
theorem ofTrimmed?_eq_some_iff {cs : List Char} : ofTrimmed? cs = some v ↔
    ∃ sign digits, cs = sign ++ digits ∧ (sign = [] ∨ sign = ['+']) ∧ digits ≠ [] ∧
      (∀ d ∈ digits, d.isDigit = true) ∧ 1 ≤ Text.denoted digits ∧ Text.denoted digits ≤ largest ∧
      v = ⟨Text.denoted digits⟩ := by
  constructor
  · intro h
    obtain ⟨sign, digits, rfl, hsign, hplus⟩ : ∃ sign digits, cs = sign ++ digits ∧
        (sign = [] ∨ sign = ['+']) ∧ (sign = [] → digits.head? ≠ some '+') := by
      by_cases hhead : cs.head? = some '+'
      · obtain ⟨digits, rfl⟩ := List.head?_eq_some_iff.mp hhead
        exact ⟨['+'], digits, rfl, .inr rfl, by simp⟩
      · exact ⟨[], cs, rfl, .inl rfl, fun _ => hhead⟩
    rw [ofTrimmed?_append hsign hplus] at h
    split at h
    · rename_i hversion
      obtain ⟨hsome, hdigits, hpos, hlarge⟩ := hversion
      exact ⟨sign, digits, rfl, hsign, hsome, List.all_eq_true.mp hdigits, hpos, hlarge,
        (Option.some.inj h).symm⟩
    · cases h
  · rintro ⟨sign, digits, rfl, hsign, hsome, hdigits, hpos, hlarge, rfl⟩
    rw [ofTrimmed?_append hsign fun _ => Text.head?_ne_plus hdigits,
      if_pos ⟨hsome, List.all_eq_true.mpr hdigits, hpos, hlarge⟩]

/-- No character of a version is blank. -/
theorem isBlank_eq_false_of_digits {sign digits : List Char} (hsign : sign = [] ∨ sign = ['+'])
    (hdigits : ∀ d ∈ digits, d.isDigit = true) : ∀ c ∈ sign ++ digits, Text.isBlank c = false := by
  intro c hc
  rcases List.mem_append.mp hc with hc | hc
  · rcases hsign with rfl | rfl
    · cases hc
    · rw [List.mem_singleton.mp hc]
      decide
  · exact Text.isBlank_eq_false_of_isDigit (hdigits c hc)

/-- What a text denotes is in the characters that trimming leaves. -/
theorem denotes_iff : Denotes s n ↔ ∃ sign digits, Text.trimChars s.toList = sign ++ digits ∧
    (sign = [] ∨ sign = ['+']) ∧ digits ≠ [] ∧ (∀ d ∈ digits, d.isDigit = true) ∧
    n = Text.denoted digits := by
  constructor
  · rintro ⟨before, sign, digits, after, hs, hbefore, hsign, hsome, hdigits, hafter, rfl⟩
    refine ⟨sign, digits, ?_, hsign, hsome, hdigits, rfl⟩
    rw [hs]
    exact (Text.trimmed_of_not_blank hbefore hafter
      (isBlank_eq_false_of_digits hsign hdigits)).trimChars_eq
  · rintro ⟨sign, digits, htrim, hsign, hsome, hdigits, rfl⟩
    obtain ⟨before, after, hs, hbefore, hafter⟩ := (Text.trimmed_trimChars s.toList).around
    rw [htrim] at hs
    exact ⟨before, sign, digits, after, hs, hbefore, hsign, hsome, hdigits, hafter, rfl⟩

/-- A text does not denote two numbers. -/
theorem Denotes.unique {m : Nat} (hm : Denotes s m) (hn : Denotes s n) : m = n := by
  obtain ⟨sign, digits, htrim, hsign, -, hdigits, rfl⟩ := denotes_iff.mp hm
  obtain ⟨sign', digits', htrim', hsign', -, hdigits', rfl⟩ := denotes_iff.mp hn
  have hsame : sign ++ digits = sign' ++ digits' := htrim.symm.trans htrim'
  rcases hsign with rfl | rfl <;> rcases hsign' with rfl | rfl
  · exact congrArg Text.denoted hsame
  · exact absurd (congrArg List.head? hsame) (Text.head?_ne_plus hdigits)
  · exact absurd (congrArg List.head? hsame.symm) (Text.head?_ne_plus hdigits')
  · rw [List.append_cancel_left hsame]

theorem ofText?_eq_some_iff :
    ofText? s = some v ↔ ∃ n, Denotes s n ∧ 1 ≤ n ∧ n ≤ largest ∧ v = ⟨n⟩ := by
  simp only [denotes_iff]
  rw [ofText?, ofTrimmed?_eq_some_iff]
  constructor
  · rintro ⟨sign, digits, htrim, hsign, hsome, hdigits, hpos, hlarge, rfl⟩
    exact ⟨_, ⟨sign, digits, htrim, hsign, hsome, hdigits, rfl⟩, hpos, hlarge, rfl⟩
  · rintro ⟨_, ⟨sign, digits, htrim, hsign, hsome, hdigits, rfl⟩, hpos, hlarge, rfl⟩
    exact ⟨sign, digits, htrim, hsign, hsome, hdigits, hpos, hlarge, rfl⟩

theorem largest_eq : largest = 2 ^ 63 - 1 := by
  decide

/-- **A text is taken for a version exactly if it denotes one.** -/
theorem parse_ok_iff : parse s = .ok v ↔ ∃ n, Denotes s n ∧ 1 ≤ n ∧ n ≤ 2 ^ 63 - 1 ∧ v = ⟨n⟩ := by
  rw [← largest_eq, ← ofText?_eq_some_iff, parse]
  cases ofText? s <;> simp

example : parse "\u2003+0009223372036854775807\n" = .ok ⟨9223372036854775807⟩ := by rfl

example : parse " 9223372036854775808" = .error (.invalidVersion " 9223372036854775808") := by rfl

/-- What is not taken for a version is told of as it is. -/
theorem parse_error_iff {fault : Fault} :
    parse s = .error fault ↔ fault = .invalidVersion s ∧ ¬ ∃ n, Denotes s n ∧ 1 ≤ n ∧ n ≤ 2 ^ 63 - 1 := by
  have hnone : (¬ ∃ n, Denotes s n ∧ 1 ≤ n ∧ n ≤ 2 ^ 63 - 1) ↔ ∀ v, ofText? s ≠ some v := by
    rw [← largest_eq]
    constructor
    · intro hnot v hv
      obtain ⟨n, hn, hpos, hlarge, -⟩ := ofText?_eq_some_iff.mp hv
      exact hnot ⟨n, hn, hpos, hlarge⟩
    · rintro hnot ⟨n, hn, hpos, hlarge⟩
      exact hnot ⟨n⟩ (ofText?_eq_some_iff.mpr ⟨n, hn, hpos, hlarge, rfl⟩)
  rw [hnone, parse]
  cases ofText? s <;> simp [eq_comm]

/-- Versions are ordered as the numbers that their texts denote. -/
theorem compare_eq {t : String} {m : Nat} {w : Version} (hs : Denotes s m) (ht : Denotes t n)
    (hv : parse s = .ok v) (hw : parse t = .ok w) : compare v w = compare m n := by
  obtain ⟨m', hs', -, -, rfl⟩ := parse_ok_iff.mp hv
  obtain ⟨n', ht', -, -, rfl⟩ := parse_ok_iff.mp hw
  rw [hs.unique hs', ht.unique ht']
  show compare (m' : Int) (n' : Int) = compare m' n'
  simp [compare, compareOfLessAndEq]

end Version

/-! ### Versions in documents -/

namespace Kind

theorem fieldNames_nodup (kind : Kind) : kind.fieldNames.Nodup := by
  cases kind <;> decide

/-- Every record has a field for its version. -/
theorem version_field (kind : Kind) : ∃ (field : Json.Field kind.form.Content)
    (set : Option Version → kind.form.Content → kind.form.Content),
    kind.form.schema.field? "version" = some field ∧
      (field.read = fun node => (Decoder.optional Version.decode node).map set) ∧
      ∀ v c, kind.form.record (set v c) = (kind.form.record c).withVersion v := by
  cases kind <;> exact ⟨_, _, rfl, rfl, fun _ _ => rfl⟩

end Kind

namespace Record

variable {kind : Kind} {s s' t : String} {slot : Slot} {r r' : Record}

section Slots

variable (hslot : slot.IsOf kind.form.schema "version") (hs : Document.Writes s (slot.fill .null))
  (hs' : Document.Writes s' (slot.fill (.text (some t))))
include hslot hs hs'

/-- With a text in place of null a document is read as the same record at the version that the text names;
if it names none, that is the fault. -/
theorem ofText_version (hok : ofText kind s = .ok r) :
    ofText kind s' = (Version.parse t).map fun v => r.withVersion (some v) := by
  obtain ⟨field, set, hfield, hread, hset⟩ := kind.version_field
  rw [ofText_of_writes hs] at hok
  obtain ⟨c, hc, rfl⟩ := map_eq_ok.mp hok
  obtain ⟨base, update, hnull, rfl, hother⟩ := Schema.decode_exchange kind.lenient kind.independent
    kind.fieldNames_nodup hfield hslot hc
  obtain rfl : set none = update := by
    rw [hread] at hnull
    exact Except.ok.inj hnull
  have htext : field.read (.text (some t)) = (Version.parse t).map fun v => set (some v) := by
    rw [hread]
    show ((Version.parse t).map some).map set = _
    cases Version.parse t <;> rfl
  rw [ofText_of_writes hs', hother, htext]
  cases Version.parse t with
  | error fault => rfl
  | ok v =>
      show Except.ok (kind.form.record (set (some v) base)) = .ok _
      rw [hset, hset]
      exact congrArg _ (withVersion_withVersion _ _ _).symm

/-- With null in place of a text a document is still understood. -/
theorem ofText_no_version (hok : ofText kind s' = .ok r') : ∃ r, ofText kind s = .ok r := by
  obtain ⟨field, set, hfield, hread, -⟩ := kind.version_field
  rw [ofText_of_writes hs'] at hok
  obtain ⟨c, hc, rfl⟩ := map_eq_ok.mp hok
  obtain ⟨base, -, -, -, hother⟩ := Schema.decode_exchange kind.lenient kind.independent
    kind.fieldNames_nodup hfield hslot hc
  refine ⟨kind.form.record (set none base), ?_⟩
  rw [ofText_of_writes hs, hother, hread]
  rfl

end Slots

end Record

namespace Version

/-! ### The result -/

/-- Texts and versions. -/
structure TextLaws : Prop where
  /-- A text that denotes a number is taken for a version exactly if the number can be stored, and no other
  text is. -/
  accepts (s : String) (v : Version) :
    parse s = .ok v ↔ ∃ n, Denotes s n ∧ 1 ≤ n ∧ n ≤ 2 ^ 63 - 1 ∧ v = ⟨n⟩
  /-- Any other text is told of as it is, with the blank characters around it. -/
  refuses (s : String) (h : ¬ ∃ n, Denotes s n ∧ 1 ≤ n ∧ n ≤ 2 ^ 63 - 1) :
    parse s = .error (.invalidVersion s)
  /-- A version that can be stored is read back from its text. -/
  readBack (v : Version) (h : 1 ≤ v.number) (h' : v.number ≤ 2 ^ 63 - 1) : parse v.text = .ok v
  /-- The order of versions is the order of the numbers that their texts denote. -/
  ordered (s t : String) (m n : Nat) (v w : Version) (hm : Denotes s m) (hn : Denotes t n)
    (hv : parse s = .ok v) (hw : parse t = .ok w) : compare v w = compare m n
  /-- A record's document that is understood without a version is understood with a text for a version,
  however it is spelled, if that is taken for one.  The version is the same. -/
  inDocuments (kind : Kind) (slot : Slot) (s s' t : String) (hslot : slot.IsOf kind.form.schema "version")
    (hs : Document.Writes s (slot.fill .null)) (hs' : Document.Writes s' (slot.fill (.text (some t))))
    (r : Record) (hok : Record.ofText kind s = .ok r) :
    Record.ofText kind s' = (parse t).map fun v => r.withVersion (some v)
  /-- A version does not help a document that is not understood without one. -/
  nowhereElse (kind : Kind) (slot : Slot) (s s' t : String) (hslot : slot.IsOf kind.form.schema "version")
    (hs : Document.Writes s (slot.fill .null)) (hs' : Document.Writes s' (slot.fill (.text (some t))))
    (r : Record) (hok : Record.ofText kind s' = .ok r) : ∃ r, Record.ofText kind s = .ok r

/-- **Texts are versions as the grammar has it, alone and in the documents of records.** -/
theorem textLaws : TextLaws where
  accepts _ _ := parse_ok_iff
  refuses _ h := parse_error_iff.mpr ⟨rfl, h⟩
  readBack _ h h' := parse_text ⟨h, by rw [largest_eq]; exact h'⟩
  ordered _ _ _ _ _ _ hm hn hv hw := compare_eq hm hn hv hw
  inDocuments _ _ _ _ _ hslot hs hs' _ hok := Record.ofText_version hslot hs hs' hok
  nowhereElse _ _ _ _ _ hslot hs hs' _ hok := Record.ofText_no_version hslot hs hs' hok

/-- A role as a list, without a version and with one that is spelled at length. -/
def unversionedText : String := "[\"dev\", null]"

def versionedText : String := "[\"dev\", \" +0\\u0037\"]"

/-- The seventh version of a role. -/
theorem textLaws_of_seven : parse " +07" = .ok ⟨7⟩ ∧
    Record.ofText .role versionedText = .ok (.role { id := "dev", version := some ⟨7⟩ }) := by
  have hdenotes : Denotes " +07" 7 :=
    ⟨[' '], ['+'], ['0', '7'], [], rfl, List.all_eq_true.mp rfl, .inr rfl, by decide,
      List.all_eq_true.mp rfl, by simp, rfl⟩
  have hseven : parse " +07" = .ok ⟨7⟩ :=
    (textLaws.accepts _ _).mpr ⟨7, hdenotes, by omega, by omega, rfl⟩
  have hs : Document.Writes unversionedText ((Slot.item [.text (some "dev")] []).fill .null) :=
    Document.writes_iff.mpr ⟨rfl, rfl⟩
  have hs' : Document.Writes versionedText
      ((Slot.item [.text (some "dev")] []).fill (.text (some " +07"))) :=
    Document.writes_iff.mpr ⟨rfl, rfl⟩
  have hslot : (Slot.item [.text (some "dev")] []).IsOf Kind.role.form.schema "version" := rfl
  have hok : Record.ofText .role unversionedText = .ok (.role { id := "dev" }) := rfl
  refine ⟨hseven, ?_⟩
  rw [textLaws.inDocuments .role _ _ _ _ hslot hs hs' _ hok, hseven]
  rfl

end Version

end AccessStore
