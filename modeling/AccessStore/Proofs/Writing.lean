/-
What is written is in the grammar.

The text of a value is one layout of the tokens of its tree, the one without white space, where every
character of a text and every integer has the one spelling that this library gives it.  So what the reader
makes of documents it makes of these: a value is read back from its text, `Document.ofText_render`, whatever
characters its texts are made of.
-/
import Mathlib.Tactic.IntervalCases
import AccessStore.Json.Value
import AccessStore.Proofs.Grammar

namespace AccessStore.Json

/-! ### Texts

A text is spelled character by character.  Which piece of the scanner a spelling becomes
depends on the character, but the content of the pieces is always the text again. -/

theorem hexValue?_hexDigit : ∀ n < 16, Text.hexValue? (Text.hexDigit n) = some n := by decide

namespace Piece

/-- How a character is spelled in a text that is written. -/
def ofChar (c : Char) : Piece :=
  if 0x20 ≤ c.toNat ∨ c ∈ ['\x08', '\x0c', '\n', '\r', '\t'] then .char c else .unit c.toNat

theorem content?_unit_cons {n : Nat} (hn : n < 0xD800) (rest : List Piece) :
    content? (.unit n :: rest) = (content? rest).map (Char.ofNat n :: ·) := by
  have hhigh : isHighSurrogate n = false := by
    simp only [isHighSurrogate, Bool.and_eq_false_iff, decide_eq_false_iff_not]
    omega
  have hlow : isLowSurrogate n = false := by
    simp only [isLowSurrogate, Bool.and_eq_false_iff, decide_eq_false_iff_not]
    omega
  cases rest with
  | nil => simp [content?, hhigh, hlow]
  | cons p rest => cases p <;> simp [content?, hhigh, hlow]

/-- The spelling of characters names these characters. -/
theorem content?_map_ofChar (cs : List Char) : content? (cs.map ofChar) = some cs := by
  induction cs with
  | nil => rfl
  | cons c rest ih =>
      rw [List.map_cons, ofChar]
      split
      · rw [content?, ih]
        rfl
      · rename_i hc
        have hsmall : c.toNat < 0xD800 := by
          have hlow : ¬ 0x20 ≤ c.toNat := fun h => hc (.inl h)
          omega
        rw [content?_unit_cons hsmall, ih, Char.ofNat_toNat]
        rfl

/-- A character is spelled by the letter for it, by its number, or as it is. -/
theorem spelled_escape (c : Char) {cs : List Char} {pieces : List Piece} (h : Spelled cs pieces) :
    Spelled (escape c ++ cs) (ofChar c :: pieces) := by
  by_cases hnamed : c ∈ ['"', '\\', '\x08', '\x0c', '\n', '\r', '\t']
  · simp only [List.mem_cons, List.not_mem_nil, or_false] at hnamed
    rcases hnamed with rfl | rfl | rfl | rfl | rfl | rfl | rfl <;> exact .named rfl h
  · simp only [List.mem_cons, List.not_mem_nil, or_false, not_or] at hnamed
    obtain ⟨hquote, hslash, hb, hf, hn, hr, ht⟩ := hnamed
    rw [escape, if_neg hquote, if_neg hslash, if_neg hb, if_neg hf, if_neg hn, if_neg hr, if_neg ht]
    by_cases hlow : c.toNat < 0x20
    · -- The two hexadecimal digits that are not zero say the number.
      have hhigh := hexValue?_hexDigit (c.toNat / 16) (by omega)
      have hdigit := hexValue?_hexDigit (c.toNat % 16) (by omega)
      have hzero : Text.hexValue? '0' = some 0 := by decide
      have hpiece : ofChar c = .unit c.toNat := by
        rw [ofChar, if_neg]
        simp [hb, hf, hn, hr, ht, hlow]
      have hvalue : ((0 * 16 + 0) * 16 + c.toNat / 16) * 16 + c.toNat % 16 = c.toNat := by omega
      have hspelled := Spelled.numbered hzero hzero hhigh hdigit h
      rw [hvalue] at hspelled
      rw [if_pos hlow, hpiece]
      exact hspelled
    · have hpiece : ofChar c = .char c := if_pos (.inl (by omega))
      rw [if_neg hlow, hpiece]
      exact .plain hquote hslash (by omega) h

theorem spelled_escapes (cs : List Char) : Spelled (cs.flatMap escape) (cs.map ofChar) := by
  induction cs with
  | nil => exact .nil
  | cons c cs ih => exact spelled_escape c ih

end Piece

/-- A text is spelled between its quotes. -/
theorem Token.spelled_quoted (s : String) : Spelled (quoted s) (.text (some s)) := by
  have hspelled := Spelled.text (Piece.spelled_escapes s.toList)
  rw [Piece.content?_map_ofChar, Option.map_some, String.ofList_toList] at hspelled
  exact hspelled

/-- A member's name comes before a colon. -/
theorem Token.LaidOut.named {tokens : List Token} {rest : List Char} (h : LaidOut tokens rest) (name : String) :
    LaidOut (.text (some name) :: .colon :: tokens) (quoted name ++ ':' :: rest) :=
  (h.spelled .colon).spelled (spelled_quoted name)

/-! ### Numbers -/

namespace Numeral

theorem toDigits_eq_cons {n : Nat} (hn : 0 < n) :
    ∃ k ds, 1 ≤ k ∧ k ≤ 9 ∧ Nat.toDigits 10 n = k.digitChar :: ds := by
  induction n using Nat.strongRecOn with
  | ind n ih =>
      by_cases hlt : n < 10
      · exact ⟨n, [], hn, by omega, Nat.toDigits_of_lt_base hlt⟩
      · obtain ⟨k, ds, hk, hk', heq⟩ := ih (n / 10) (by omega) (by omega)
        refine ⟨k, ds ++ [(n % 10).digitChar], hk, hk', ?_⟩
        rw [Nat.toDigits_of_base_le (by decide) (by omega), heq]
        rfl

/-- The digits of a number do not start with a zero, unless it is zero. -/
theorem isWhole_toDigits (n : Nat) : IsWhole (Nat.toDigits 10 n) := by
  rcases Nat.eq_zero_or_pos n with rfl | hn
  · exact .zero
  · obtain ⟨k, ds, hk, hk', heq⟩ := toDigits_eq_cons hn
    have hdigits : ∀ d ∈ k.digitChar :: ds, d.isDigit = true := by
      rw [← heq]
      exact fun d hd => Text.isDigit_of_mem_toDigits hd
    obtain ⟨hfirst, hds⟩ := List.forall_mem_cons.mp hdigits
    have hzero : k.digitChar ≠ '0' := by interval_cases k <;> decide
    rw [heq]
    exact .digits hfirst hzero hds

/-- An integer is a number without a point or an exponent. -/
theorem isSpelling_decimalChars (n : Int) : IsSpelling (Text.decimalChars n) := by
  have hspelling {sign : List Char} (hsign : sign = [] ∨ sign = ['-']) (m : Nat) :
      IsSpelling (sign ++ Nat.toDigits 10 m) := by
    have hparts := IsSpelling.parts hsign (isWhole_toDigits m) .none .none
    rw [List.append_nil, List.append_nil] at hparts
    exact hparts
  cases n with
  | ofNat n => exact hspelling (.inl rfl) n
  | negSucc n => exact hspelling (.inr rfl) (n + 1)

end Numeral

/-! ### The tree of a value -/

namespace Value

mutual
/-- A value as a tree. -/
def node : Value → Node
  | null => .null
  | flag value => .flag value
  | number n => .number (Text.decimalChars n)
  | text s => .text (some s)
  | list items => .array (nodes items) .closed
  | object members => .object (memberNodes members) .closed
/-- Values as trees. -/
def nodes : List Value → List Node
  | [] => []
  | item :: rest => node item :: nodes rest
/-- Members as trees. -/
def memberNodes : List (String × Value) → List Member
  | [] => []
  | (name, value) :: rest => (some name, node value) :: memberNodes rest
end

theorem nodes_eq_map (items : List Value) : nodes items = items.map node := by
  induction items with
  | nil => rfl
  | cons item rest ih => rw [nodes, ih, List.map_cons]

theorem memberNodes_eq_map (members : List (String × Value)) :
    memberNodes members = members.map fun m => (some m.1, m.2.node) := by
  induction members with
  | nil => rfl
  | cons m rest ih => rw [memberNodes, ih, List.map_cons]

mutual
/-- The text of a value is a layout of its tree, whatever comes after. -/
theorem laidOut_chars : ∀ (v : Value) {more : List Token} {rest : List Char}, Token.LaidOut more rest →
    Token.LaidOut (v.node.tokens ++ more) (v.chars ++ rest)
  | .null, _, _, h => h.spelled .null
  | .flag true, _, _, h => h.spelled .yes
  | .flag false, _, _, h => h.spelled .no
  | .number n, _, _, h => h.spelled (.number (Numeral.isSpelling_decimalChars n))
  | .text s, _, _, h => h.spelled (Token.spelled_quoted s)
  | .list [], _, _, h => (h.spelled .closeArray).spelled .openArray
  | .list (item :: items), _, _, h => by
      have hitem := laidOut_chars item (laidOut_itemChars items h)
      rw [node, nodes, Node.tokens, chars]
      simp only [List.cons_append, List.append_assoc]
      exact hitem.spelled .openArray
  | .object [], _, _, h => (h.spelled .closeObject).spelled .openObject
  | .object ((name, value) :: members), _, _, h => by
      have hvalue := laidOut_chars value (laidOut_memberChars members h)
      rw [node, memberNodes, Node.tokens, chars]
      simp only [List.cons_append, List.append_assoc]
      exact (hvalue.named name).spelled .openObject
/-- So is the text of the items after the first. -/
theorem laidOut_itemChars : ∀ (items : List Value) {more : List Token} {rest : List Char},
    Token.LaidOut more rest → Token.LaidOut (Node.itemTokens (nodes items) ++ more) (itemChars items ++ rest)
  | [], _, _, h => h.spelled .closeArray
  | item :: items, _, _, h => by
      have hitem := laidOut_chars item (laidOut_itemChars items h)
      rw [nodes, Node.itemTokens, itemChars]
      simp only [List.cons_append, List.append_assoc]
      exact hitem.spelled .comma
/-- So is the text of the members after the first. -/
theorem laidOut_memberChars : ∀ (members : List (String × Value)) {more : List Token} {rest : List Char},
    Token.LaidOut more rest →
      Token.LaidOut (Node.memberTokens (memberNodes members) ++ more) (memberChars members ++ rest)
  | [], _, _, h => h.spelled .closeObject
  | (name, value) :: members, _, _, h => by
      have hvalue := laidOut_chars value (laidOut_memberChars members h)
      rw [memberNodes, Node.memberTokens, memberChars]
      simp only [List.cons_append, List.append_assoc]
      exact (hvalue.named name).spelled .comma
end

mutual
/-- The tree of a value is whole. -/
theorem isWhole_node : ∀ v : Value, v.node.isWhole = true
  | .null | .flag _ | .number _ | .text _ => rfl
  | .list items => Node.isWhole_array.mpr ⟨rfl, areWhole_nodes items⟩
  | .object members => Node.isWhole_object.mpr ⟨rfl, membersWhole_nodes members⟩
theorem areWhole_nodes : ∀ items : List Value, Node.areWhole (nodes items) = true
  | [] => rfl
  | item :: rest => Node.areWhole_cons.mpr ⟨isWhole_node item, areWhole_nodes rest⟩
theorem membersWhole_nodes : ∀ members : List (String × Value), Node.membersWhole (memberNodes members) = true
  | [] => rfl
  | (_, value) :: rest => Node.membersWhole_cons.mpr ⟨isWhole_node value, membersWhole_nodes rest⟩
end

end Value

/-- The text of a value is a document that writes the tree of the value. -/
theorem Document.writes_render (v : Value) : Writes v.render v.node := by
  have hlaid := v.laidOut_chars (.nil (List.forall_mem_nil Token.IsSpace))
  rw [List.append_nil, List.append_nil] at hlaid
  refine ⟨v.isWhole_node, ?_⟩
  rw [Value.render, String.toList_ofList]
  exact hlaid

/-- **A value is read back from its text.** -/
theorem Document.ofText_render (v : Value) : ofText v.render = ⟨v.node, false⟩ :=
  ofText_of_writes (writes_render v)

end AccessStore.Json
