/-
The grammar of documents.

A document is the tokens of a tree, each spelled in one of the ways it can be, with white space around them
as one likes: `Document.Writes`.  The reader makes tokens of characters and a tree of tokens without ever
asking where white space stood or how a token was spelled, and `Document.ofText_of_writes` is what comes of
it: every document that a tree can be written in is read as this tree, however deep it is.

Of all tokens only a number is not complete where it ends.  In the tokens of a tree it is followed by a comma
or a closing bracket, or by nothing, which is `Token.Separated`; so the scanner notices in time.
-/
import Mathlib.Data.List.Chain
import AccessStore.Json.Node

namespace AccessStore.Json

/-! ### Numbers -/

namespace Numeral

/-- Digits, at least one. -/
def AreDigits (ds : List Char) : Prop := ds ≠ [] ∧ ∀ d ∈ ds, d.isDigit = true

/-- The digits before the point. -/
inductive IsWhole : List Char → Prop
  | zero : IsWhole ['0']
  | digits {d : Char} {ds : List Char} (hd : d.isDigit = true) (hzero : d ≠ '0')
      (hds : ∀ d ∈ ds, d.isDigit = true) : IsWhole (d :: ds)

/-- The point and the digits after it, if there are any. -/
inductive IsFraction : List Char → Prop
  | none : IsFraction []
  | some {ds : List Char} (h : AreDigits ds) : IsFraction ('.' :: ds)

/-- The exponent, if there is one. -/
inductive IsExponent : List Char → Prop
  | none : IsExponent []
  | some {mark : Char} {sign ds : List Char} (hmark : mark = 'e' ∨ mark = 'E')
      (hsign : sign = [] ∨ sign = ['+'] ∨ sign = ['-']) (h : AreDigits ds) :
      IsExponent (mark :: (sign ++ ds))

/-- How a number can be spelled. -/
inductive IsSpelling : List Char → Prop
  | parts {sign whole fraction exponent : List Char} (hsign : sign = [] ∨ sign = ['-'])
      (hwhole : IsWhole whole) (hfraction : IsFraction fraction) (hexponent : IsExponent exponent) :
      IsSpelling (sign ++ (whole ++ (fraction ++ exponent)))

end Numeral

/-! ### Tokens and their layout -/

/-- How the pieces of a text can be spelled: a character as it is, by its letter, or by its number. -/
inductive Piece.Spelled : List Char → List Piece → Prop
  | nil : Spelled [] []
  | plain {c : Char} {cs : List Char} {pieces : List Piece} (hquote : c ≠ '"') (hslash : c ≠ '\\')
      (hcontrol : 0x20 ≤ c.toNat) (h : Spelled cs pieces) : Spelled (c :: cs) (.char c :: pieces)
  | named {letter c : Char} {cs : List Char} {pieces : List Piece} (hletter : escaped? letter = some c)
      (h : Spelled cs pieces) : Spelled ('\\' :: letter :: cs) (.char c :: pieces)
  | numbered {a b c d : Char} {i j k l : Nat} {cs : List Char} {pieces : List Piece}
      (ha : Text.hexValue? a = some i) (hb : Text.hexValue? b = some j) (hc : Text.hexValue? c = some k)
      (hd : Text.hexValue? d = some l) (h : Spelled cs pieces) :
      Spelled ('\\' :: 'u' :: a :: b :: c :: d :: cs)
        (.unit (((i * 16 + j) * 16 + k) * 16 + l) :: pieces)

namespace Token

/-- How a token can be spelled. -/
inductive Spelled : List Char → Token → Prop
  | openArray : Spelled ['['] .openArray
  | closeArray : Spelled [']'] .closeArray
  | openObject : Spelled ['{'] .openObject
  | closeObject : Spelled ['}'] .closeObject
  | comma : Spelled [','] .comma
  | colon : Spelled [':'] .colon
  | null : Spelled ['n', 'u', 'l', 'l'] .null
  | yes : Spelled ['t', 'r', 'u', 'e'] (.flag true)
  | no : Spelled ['f', 'a', 'l', 's', 'e'] (.flag false)
  | number {cs : List Char} (h : Numeral.IsSpelling cs) : Spelled cs (.number cs)
  | text {cs : List Char} {pieces : List Piece} (h : Piece.Spelled cs pieces) :
      Spelled ('"' :: (cs ++ ['"'])) (.text ((Piece.content? pieces).map String.ofList))

/-- White space between tokens. -/
def IsSpace (c : Char) : Prop := c = ' ' ∨ c = '\n' ∨ c = '\t' ∨ c = '\r'

/-- The characters are a layout of the tokens: each is spelled in some way, and there is white space before,
between and after them, or none. -/
inductive LaidOut : List Token → List Char → Prop
  | nil {space : List Char} (hspace : ∀ c ∈ space, IsSpace c) : LaidOut [] space
  | cons {token : Token} {tokens : List Token} {space cs rest : List Char}
      (hspace : ∀ c ∈ space, IsSpace c) (hspelled : Spelled cs token) (hrest : LaidOut tokens rest) :
      LaidOut (token :: tokens) (space ++ (cs ++ rest))

/-- There need not be white space. -/
theorem LaidOut.spelled {token : Token} {tokens : List Token} {cs rest : List Char} (h : LaidOut tokens rest)
    (hspelled : Spelled cs token) : LaidOut (token :: tokens) (cs ++ rest) :=
  .cons (List.forall_mem_nil IsSpace) hspelled h

/-- The token is a bracket, a brace, a comma or a colon. -/
def isMark : Token → Bool
  | openArray | closeArray | openObject | closeObject | comma | colon => true
  | _ => false

/-- Of two tokens in a row one is such a mark. -/
def Separated (tokens : List Token) : Prop := tokens.IsChain fun a b => a.isMark = true ∨ b.isMark = true

end Token

/-! ### Documents -/

namespace Node

mutual
/-- The tokens of a whole tree. -/
def tokens : Node → List Token
  | null => [.null]
  | flag value => [.flag value]
  | number spelling => [.number spelling]
  | text content => [.text content]
  | array [] _ => [.openArray, .closeArray]
  | array (item :: rest) _ => .openArray :: (tokens item ++ itemTokens rest)
  | object [] _ => [.openObject, .closeObject]
  | object ((name, value) :: rest) _ =>
      .openObject :: .text name :: .colon :: (tokens value ++ memberTokens rest)
  | missing => [.unreadable]
/-- The tokens of the items after the first, and the closing bracket. -/
def itemTokens : List Node → List Token
  | [] => [.closeArray]
  | item :: rest => .comma :: (tokens item ++ itemTokens rest)
/-- The tokens of the members after the first, and the closing brace. -/
def memberTokens : List Member → List Token
  | [] => [.closeObject]
  | (name, value) :: rest => .comma :: .text name :: .colon :: (tokens value ++ memberTokens rest)
end

end Node

/-- The text is a document that writes this tree. -/
structure Document.Writes (s : String) (node : Node) : Prop where
  whole : node.isWhole = true
  laidOut : Token.LaidOut node.tokens s.toList

/-! ### Scanning a layout -/

namespace Scanning

/-- The tokens that are found if the scanner goes on from here; those found before, last first. -/
def scan (acc : List Token) (state : Scanning) (cs : List Char) : List Token :=
  (run acc state cs).1.reverse ++ (run acc state cs).2.finish

theorem run_cons (acc : List Token) (state : Scanning) (c : Char) (cs : List Char) :
    run acc state (c :: cs) = run ((state.step c).1.reverse ++ acc) (state.step c).2 cs := rfl

theorem scan_cons (acc : List Token) (state : Scanning) (c : Char) (cs : List Char) :
    scan acc state (c :: cs) = scan ((state.step c).1.reverse ++ acc) (state.step c).2 cs := rfl

theorem scan_of_run {acc acc' : List Token} {state state' : Scanning} {cs cs' : List Char}
    (h : run acc state cs = run acc' state' cs') : scan acc state cs = scan acc' state' cs' := by
  rw [scan, scan, h]

/-- White space is nothing to the scanner between tokens. -/
theorem scan_space {space : List Char} (hspace : ∀ c ∈ space, Token.IsSpace c) (acc : List Token)
    (rest : List Char) : scan acc .between (space ++ rest) = scan acc .between rest := by
  induction space with
  | nil => rfl
  | cons c space ih =>
      obtain ⟨hc, hspace⟩ := List.forall_mem_cons.mp hspace
      rw [← ih hspace]
      rcases hc with rfl | rfl | rfl | rfl <;> rfl

/-! ### Numbers in a layout -/

/-- From one phase of a number to another by these characters. -/
def Extends (phase : NumberPhase) (cs : List Char) (phase' : NumberPhase) : Prop :=
  ∀ acc spelling rest, run acc (.number phase spelling) (cs ++ rest)
    = run acc (.number phase' (cs.reverse ++ spelling)) rest

theorem Extends.nil (phase : NumberPhase) : Extends phase [] phase := fun _ _ _ => rfl

theorem Extends.cons {phase phase' phase'' : NumberPhase} {c : Char} {cs : List Char}
    (hc : phase.step c = .more phase') (h : Extends phase' cs phase'') :
    Extends phase (c :: cs) phase'' := by
  intro acc spelling rest
  have hstep : (number phase spelling).step c = ([], .number phase' (c :: spelling)) := by
    rw [step, hc]
  rw [List.cons_append, run_cons, hstep, List.reverse_cons, List.append_assoc]
  exact h acc (c :: spelling) rest

theorem Extends.append {phase phase' phase'' : NumberPhase} {cs ds : List Char}
    (h : Extends phase cs phase') (h' : Extends phase' ds phase'') : Extends phase (cs ++ ds) phase'' := by
  intro acc spelling rest
  rw [List.append_assoc, h, h', List.reverse_append, List.append_assoc]

/-- Digits go on where digits go on. -/
theorem extends_digits {phase : NumberPhase} (hphase : ∀ d, d.isDigit = true → phase.step d = .more phase)
    {ds : List Char} (hds : ∀ d ∈ ds, d.isDigit = true) : Extends phase ds phase := by
  induction ds with
  | nil => exact .nil phase
  | cons d ds ih =>
      obtain ⟨hd, hds⟩ := List.forall_mem_cons.mp hds
      exact .cons (hphase d hd) (ih hds)

theorem extends_areDigits {before phase : NumberPhase} {ds : List Char}
    (hbefore : ∀ d, d.isDigit = true → before.step d = .more phase)
    (hphase : ∀ d, d.isDigit = true → phase.step d = .more phase) (hds : Numeral.AreDigits ds) :
    Extends before ds phase := by
  obtain ⟨hne, hds⟩ := hds
  cases ds with
  | nil => exact absurd rfl hne
  | cons d ds =>
      obtain ⟨hd, hds⟩ := List.forall_mem_cons.mp hds
      exact .cons (hbefore d hd) (extends_digits hphase hds)

/-- The digits before the point are scanned at the start of a number and after its sign. -/
theorem run_whole {cs : List Char} (h : Numeral.IsWhole cs) :
    ∃ phase : NumberPhase, (phase = .zero ∨ phase = .whole) ∧ Extends .sign cs phase ∧
      ∀ acc rest, run acc .between (cs ++ rest) = run acc (.number phase cs.reverse) rest := by
  cases h with
  | zero => exact ⟨.zero, .inl rfl, .cons rfl (.nil _), fun _ _ => rfl⟩
  | @digits d ds hd hzero hds =>
      have hmore : Extends .whole ds .whole :=
        extends_digits (fun d hd => by simp [NumberPhase.step, hd]) hds
      refine ⟨.whole, .inr rfl, .cons (by simp [NumberPhase.step, hzero, hd]) hmore, ?_⟩
      intro acc rest
      have hstart : between.step d = ([], .number .whole [d]) := by
        have hne (c : Char) (hc : c.isDigit = false) : d ≠ c := by
          rintro rfl
          rw [hc] at hd
          cases hd
        simp only [step]
        unfold start
        split
        all_goals first
          | exact absurd rfl (hne _ (by decide))
          | exact absurd rfl hzero
          | exact if_pos hd
      rw [List.cons_append, run_cons, hstart, List.reverse_cons]
      exact hmore acc [d] rest

theorem extends_fraction {phase : NumberPhase} (hphase : phase = .zero ∨ phase = .whole) {cs : List Char}
    (h : Numeral.IsFraction cs) :
    ∃ phase' : NumberPhase, (phase' = .zero ∨ phase' = .whole ∨ phase' = .fraction) ∧
      Extends phase cs phase' := by
  cases h with
  | none => exact ⟨phase, hphase.imp_right .inl, .nil phase⟩
  | some hds =>
      have hdigits : Extends .point _ .fraction := extends_areDigits
        (fun d hd => by simp [NumberPhase.step, hd]) (fun d hd => by simp [NumberPhase.step, hd]) hds
      refine ⟨.fraction, .inr (.inr rfl), .cons ?_ hdigits⟩
      rcases hphase with rfl | rfl <;> rfl

theorem extends_exponent {phase : NumberPhase}
    (hphase : phase = .zero ∨ phase = .whole ∨ phase = .fraction) {cs : List Char}
    (h : Numeral.IsExponent cs) :
    ∃ phase' : NumberPhase, phase'.isComplete = true ∧ Extends phase cs phase' := by
  cases h with
  | none =>
      refine ⟨phase, ?_, .nil phase⟩
      rcases hphase with rfl | rfl | rfl <;> rfl
  | @some mark sign ds hmark hsign hds =>
      have hmarked : phase.step mark = .more .mark := by
        rcases hphase with rfl | rfl | rfl <;> rcases hmark with rfl | rfl <;> rfl
      have hdigit (d : Char) (hd : d.isDigit = true) : NumberPhase.exponent.step d = .more .exponent := by
        simp [NumberPhase.step, hd]
      refine ⟨.exponent, rfl, .cons hmarked ?_⟩
      rcases hsign with rfl | rfl | rfl
      · exact extends_areDigits (fun d hd => by simp [NumberPhase.step, hd]) hdigit hds
      · exact .cons rfl (extends_areDigits (fun d hd => by simp [NumberPhase.step, hd]) hdigit hds)
      · exact .cons rfl (extends_areDigits (fun d hd => by simp [NumberPhase.step, hd]) hdigit hds)

/-- A number is scanned to where it is complete. -/
theorem run_spelling {cs : List Char} (h : Numeral.IsSpelling cs) :
    ∃ phase : NumberPhase, phase.isComplete = true ∧
      ∀ acc rest, run acc .between (cs ++ rest) = run acc (.number phase cs.reverse) rest := by
  obtain @⟨sign, whole, fraction, exponent, hsign, hwhole, hfraction, hexponent⟩ := h
  obtain ⟨phase₁, hphase₁, hsigned, hunsigned⟩ := run_whole hwhole
  obtain ⟨phase₂, hphase₂, hpoint⟩ := extends_fraction hphase₁ hfraction
  obtain ⟨phase₃, hphase₃, hmark⟩ := extends_exponent hphase₂ hexponent
  have hrest : Extends phase₁ (fraction ++ exponent) phase₃ := hpoint.append hmark
  refine ⟨phase₃, hphase₃, ?_⟩
  intro acc rest
  rcases hsign with rfl | rfl
  · rw [List.nil_append, List.append_assoc, hunsigned, hrest, ← List.reverse_append]
  · have hstart : between.step '-' = ([], .number .sign ['-']) := rfl
    rw [List.singleton_append, List.cons_append, run_cons, hstart, List.reverse_cons]
    exact hsigned.append hrest acc ['-'] rest

/-- After these characters no number goes on. -/
def Ends (rest : List Char) : Prop :=
  ∀ c ∈ rest.head?, Token.IsSpace c ∨ c ∈ ['[', ']', '{', '}', ',', ':']

/-- A number that is complete is noticed to end. -/
theorem scan_number {phase : NumberPhase} (hphase : phase.isComplete = true) (acc : List Token)
    (spelling : List Char) {rest : List Char} (hends : Ends rest) :
    scan acc (.number phase spelling) rest = scan (.number spelling.reverse :: acc) .between rest := by
  cases rest with
  | nil => simp [scan, run, finish, hphase]
  | cons c rest =>
      have hcomplete : phase.step c = .complete := by
        have hc : Token.IsSpace c ∨ c ∈ ['[', ']', '{', '}', ',', ':'] := hends c rfl
        simp only [Token.IsSpace, List.mem_cons, List.not_mem_nil, or_false] at hc
        rcases hc with (rfl | rfl | rfl | rfl) | rfl | rfl | rfl | rfl | rfl | rfl <;>
          cases phase <;> first | rfl | cases hphase
      have hstep : (number phase spelling).step c
          = (.number spelling.reverse :: (start c).1, (start c).2) := by
        rw [step, hcomplete]
      rw [scan_cons, scan_cons, hstep, List.reverse_cons, List.append_assoc]
      rfl

/-! ### Texts in a layout -/

/-- The pieces of a text are scanned however they are spelled. -/
theorem run_pieces {cs : List Char} {pieces : List Piece} (h : Piece.Spelled cs pieces)
    (acc : List Token) (before : List Piece) (rest : List Char) :
    run acc (.text before) (cs ++ rest) = run acc (.text (pieces.reverse ++ before)) rest := by
  induction h generalizing before with
  | nil => rfl
  | @plain c cs pieces hquote hslash hcontrol _ ih =>
      have hstep : (text before).step c = ([], .text (.char c :: before)) := by
        have hcontrol : ¬ c.toNat < 0x20 := Nat.not_lt.mpr hcontrol
        simp [step, hquote, hslash, hcontrol]
      rw [List.cons_append, run_cons, hstep, List.reverse_cons, List.append_assoc]
      exact ih _
  | @named letter c cs pieces hletter _ ih =>
      have hstep : (escape before).step letter = ([], .text (.char c :: before)) := by
        have hu : letter ≠ 'u' := by
          rintro rfl
          cases hletter
        simp [step, hu, hletter]
      have hslash : (text before).step '\\' = ([], .escape before) := rfl
      rw [List.cons_append, List.cons_append, run_cons, hslash, run_cons, hstep, List.reverse_cons,
        List.append_assoc]
      exact ih _
  | @numbered a b c d i j k l cs pieces ha hb hc hd _ ih =>
      have hslash : (text before).step '\\' = ([], .escape before) := rfl
      have hu : (escape before).step 'u' = ([], .hex before 4 0) := rfl
      have hstep {x : Char} {n left value : Nat} (hx : Text.hexValue? x = some n) (hleft : 1 < left) :
          (hex before left value).step x = ([], .hex before (left - 1) (value * 16 + n)) := by
        simp [step, hx, Nat.not_le.mpr hleft]
      have hlast {value : Nat} : (hex before 1 value).step d
          = ([], .text (.unit (value * 16 + l) :: before)) := by
        simp [step, hd]
      simp only [List.cons_append]
      rw [run_cons, hslash, run_cons, hu, run_cons, hstep ha (by decide), run_cons, hstep hb (by decide),
        run_cons, hstep hc (by decide), run_cons, hlast, List.reverse_cons, List.append_assoc, Nat.zero_mul,
        Nat.zero_add]
      exact ih _

/-- A text is scanned however it is spelled. -/
theorem run_text {cs : List Char} {pieces : List Piece} (h : Piece.Spelled cs pieces)
    (acc : List Token) (rest : List Char) :
    run acc .between ('"' :: (cs ++ ['"']) ++ rest)
      = run (.text ((Piece.content? pieces).map String.ofList) :: acc) .between rest := by
  have hclose : (text (pieces.reverse ++ [])).step '"'
      = ([.text ((Piece.content? pieces).map String.ofList)], .between) := by
    rw [List.append_nil, step, if_pos rfl, closeText, List.reverse_reverse]
  have hopen : between.step '"' = ([], .text []) := rfl
  rw [List.cons_append, List.append_assoc, run_cons, hopen, run_pieces h, List.singleton_append, run_cons,
    hclose]
  rfl

/-! ### Tokens in a layout -/

/-- A token is found however it is spelled, if no number is to go on after it. -/
theorem scan_spelled {cs : List Char} {token : Token} (h : Token.Spelled cs token) (acc : List Token)
    {rest : List Char} (hends : token.isMark = true ∨ Ends rest) :
    scan acc .between (cs ++ rest) = scan (token :: acc) .between rest := by
  cases h with
  | number hspelling =>
      obtain ⟨phase, hphase, hrun⟩ := run_spelling hspelling
      have hends : Ends rest := hends.resolve_left (by simp [Token.isMark])
      rw [scan_of_run (hrun acc rest), scan_number hphase acc _ hends, List.reverse_reverse]
  | text hpieces => exact scan_of_run (run_text hpieces acc rest)
  | _ => rfl

/-- What is laid out before nothing or a mark starts with what ends a number. -/
theorem ends_of_laidOut {tokens : List Token} {cs : List Char} (h : Token.LaidOut tokens cs)
    (hmark : ∀ token ∈ tokens.head?, token.isMark = true) : Ends cs := by
  intro c hc
  cases h with
  | nil hspace => exact .inl (hspace c (List.mem_of_mem_head? hc))
  | @cons token tokens space spelled rest hspace hspelled _ =>
      cases space with
      | cons first space =>
          obtain rfl : first = c := Option.some.inj hc
          exact .inl (hspace first List.mem_cons_self)
      | nil =>
          have hmark : token.isMark = true := hmark token rfl
          refine .inr ?_
          cases hspelled with
          | number | text | null | yes | no => cases hmark
          | _ =>
              obtain rfl := Option.some.inj hc
              decide

/-- **A layout of tokens is scanned as these tokens.** -/
theorem scan_laidOut {tokens : List Token} {cs : List Char} (h : Token.LaidOut tokens cs)
    (hseparated : Token.Separated tokens) (acc : List Token) :
    scan acc .between cs = acc.reverse ++ tokens := by
  induction h generalizing acc with
  | @nil space hspace =>
      have hscan := scan_space hspace acc []
      rw [List.append_nil] at hscan
      rw [hscan]
      rfl
  | @cons token tokens space cs rest hspace hspelled hrest ih =>
      have hends : token.isMark = true ∨ Ends rest := by
        cases tokens with
        | nil => exact .inr (ends_of_laidOut hrest (by simp))
        | cons next tokens =>
            obtain ⟨hnext, -⟩ := List.isChain_cons_cons.mp hseparated
            exact hnext.imp_right fun hnext => ends_of_laidOut hrest (by simpa using hnext)
      rw [scan_space hspace, scan_spelled hspelled acc hends, ih hseparated.tail, List.reverse_cons,
        List.append_assoc]
      rfl

end Scanning

/-! ### Building the tree -/

namespace Node

theorem build_cons (state : Building) (token : Token) (tokens : List Token) :
    build state (token :: tokens) = build (step state token) tokens := rfl

theorem isWhole_array {items : List Node} {ending : Ending} :
    (array items ending).isWhole = true ↔ ending = .closed ∧ areWhole items = true := by
  simp [isWhole]

theorem isWhole_object {members : List Member} {ending : Ending} :
    (object members ending).isWhole = true ↔ ending = .closed ∧ membersWhole members = true := by
  simp [isWhole]

theorem areWhole_cons {node : Node} {rest : List Node} :
    areWhole (node :: rest) = true ↔ node.isWhole = true ∧ areWhole rest = true := by
  simp [areWhole]

theorem membersWhole_cons {name : Option String} {node : Node} {rest : List Member} :
    membersWhole ((name, node) :: rest) = true ↔ node.isWhole = true ∧ membersWhole rest = true := by
  simp [membersWhole]

/-- The tokens of a tree do not begin with a closing bracket. -/
theorem tokens_eq_cons (node : Node) : ∃ token rest, node.tokens = token :: rest ∧ token ≠ .closeArray := by
  cases node with
  | array items _ => cases items <;> exact ⟨_, _, rfl, by simp⟩
  | object members _ => cases members <;> exact ⟨_, _, rfl, by simp⟩
  | _ => exact ⟨_, _, rfl, by simp⟩

theorem step_firstItem {token : Token} (h : token ≠ .closeArray) (above : List Frame) :
    step (.firstItem above) token = begin token (.items [] :: above) := by
  cases token <;> first | rfl | exact absurd rfl h

/-- After an opening bracket a value is read like any other. -/
theorem build_firstItem (node : Node) (above : List Frame) (more : List Token) :
    build (.firstItem above) (node.tokens ++ more)
      = build (.value (.items [] :: above)) (node.tokens ++ more) := by
  obtain ⟨token, rest, htokens, hne⟩ := node.tokens_eq_cons
  rw [htokens, List.cons_append, build_cons, build_cons, step_firstItem hne]
  rfl

mutual
/-- The tokens of a whole tree build it. -/
theorem build_tokens : ∀ (node : Node) (above : List Frame) (more : List Token), node.isWhole = true →
    build (.value above) (node.tokens ++ more) = build (.after node above) more
  | .null, _, _, _ => rfl
  | .flag _, _, _, _ => rfl
  | .number _, _, _, _ => rfl
  | .text _, _, _, _ => rfl
  | .missing, _, _, hwhole => by cases hwhole
  | .array [] ending, _, _, hwhole => by
      obtain ⟨rfl, -⟩ := isWhole_array.mp hwhole
      rfl
  | .array (item :: rest) ending, above, more, hwhole => by
      obtain ⟨rfl, hitems⟩ := isWhole_array.mp hwhole
      obtain ⟨hitem, hrest⟩ := areWhole_cons.mp hitems
      have hitem := build_tokens item (.items [] :: above) (itemTokens rest ++ more) hitem
      have hrest := build_itemTokens rest item [] above more hrest
      rw [tokens, List.cons_append, build_cons, List.append_assoc]
      exact (build_firstItem item above _).trans (hitem.trans hrest)
  | .object [] ending, _, _, hwhole => by
      obtain ⟨rfl, -⟩ := isWhole_object.mp hwhole
      rfl
  | .object ((name, value) :: rest) ending, above, more, hwhole => by
      obtain ⟨rfl, hmembers⟩ := isWhole_object.mp hwhole
      obtain ⟨hvalue, hrest⟩ := membersWhole_cons.mp hmembers
      have hvalue := build_tokens value (.members [] name :: above) (memberTokens rest ++ more) hvalue
      have hrest := build_memberTokens rest name value [] above more hrest
      rw [tokens, List.cons_append, build_cons, List.cons_append, build_cons, List.cons_append,
        build_cons, List.append_assoc]
      exact hvalue.trans hrest
/-- The tokens of further items complete an array. -/
theorem build_itemTokens : ∀ (items : List Node) (node : Node) (before : List Node)
    (above : List Frame) (more : List Token), areWhole items = true →
    build (.after node (.items before :: above)) (itemTokens items ++ more)
      = build (.after (.array (before.reverse ++ node :: items) .closed) above) more
  | [], node, before, above, more, _ => by
      rw [itemTokens, List.cons_append, build_cons, ← List.reverse_cons]
      rfl
  | item :: rest, node, before, above, more, hwhole => by
      obtain ⟨hitem, hrest⟩ := areWhole_cons.mp hwhole
      have hitem := build_tokens item (.items (node :: before) :: above) (itemTokens rest ++ more) hitem
      have hrest := build_itemTokens rest item (node :: before) above more hrest
      rw [List.reverse_cons, List.append_assoc] at hrest
      rw [itemTokens, List.cons_append, build_cons, List.append_assoc]
      exact hitem.trans hrest
/-- The tokens of further members complete an object. -/
theorem build_memberTokens : ∀ (members : List Member) (name : Option String) (node : Node)
    (before : List Member) (above : List Frame) (more : List Token), membersWhole members = true →
    build (.after node (.members before name :: above)) (memberTokens members ++ more)
      = build (.after (.object (before.reverse ++ (name, node) :: members) .closed) above) more
  | [], name, node, before, above, more, _ => by
      rw [memberTokens, List.cons_append, build_cons, ← List.reverse_cons]
      rfl
  | (next, value) :: rest, name, node, before, above, more, hwhole => by
      obtain ⟨hvalue, hrest⟩ := membersWhole_cons.mp hwhole
      have hvalue := build_tokens value (.members ((name, node) :: before) next :: above)
        (memberTokens rest ++ more) hvalue
      have hrest := build_memberTokens rest next value ((name, node) :: before) above more hrest
      rw [List.reverse_cons, List.append_assoc] at hrest
      rw [memberTokens, List.cons_append, build_cons, List.cons_append, build_cons, List.cons_append,
        build_cons, List.append_assoc]
      exact hvalue.trans hrest
end

/-! ### The tokens of a tree are separated -/

/-- These tokens can stand after a value. -/
def Follows (more : List Token) : Prop :=
  Token.Separated more ∧ ∀ token ∈ more.head?, token.isMark = true

theorem separated_mark {token : Token} {more : List Token} (htoken : token.isMark = true)
    (h : Token.Separated more) : Token.Separated (token :: more) := by
  cases more with
  | nil => exact .singleton token
  | cons next more => exact List.isChain_cons_cons.mpr ⟨.inl htoken, h⟩

theorem follows_mark {token : Token} {more : List Token} (htoken : token.isMark = true)
    (h : Token.Separated more) : Follows (token :: more) :=
  ⟨separated_mark htoken h, by simpa using htoken⟩

theorem Follows.separated_cons {more : List Token} (h : Follows more) (token : Token) :
    Token.Separated (token :: more) := by
  cases more with
  | nil => exact .singleton token
  | cons next more => exact List.isChain_cons_cons.mpr ⟨.inr (h.2 next rfl), h.1⟩

mutual
/-- A tree can be followed by what can stand after a value. -/
theorem separated_tokens : ∀ (node : Node) (more : List Token), Follows more →
    Token.Separated (node.tokens ++ more)
  | .null, _, hmore => hmore.separated_cons _
  | .flag _, _, hmore => hmore.separated_cons _
  | .number _, _, hmore => hmore.separated_cons _
  | .text _, _, hmore => hmore.separated_cons _
  | .missing, _, hmore => hmore.separated_cons _
  | .array [] _, _, hmore => separated_mark rfl (separated_mark rfl hmore.1)
  | .array (item :: rest) _, more, hmore => by
      rw [tokens, List.cons_append, List.append_assoc]
      exact separated_mark rfl (separated_tokens item _ (follows_itemTokens rest more hmore.1))
  | .object [] _, _, hmore => separated_mark rfl (separated_mark rfl hmore.1)
  | .object ((_, value) :: rest) _, more, hmore => by
      have hvalue := separated_tokens value _ (follows_memberTokens rest more hmore.1)
      rw [tokens, List.cons_append, List.cons_append, List.cons_append, List.append_assoc]
      exact separated_mark rfl ((follows_mark rfl hvalue).separated_cons _)
/-- What ends an array can stand after a value. -/
theorem follows_itemTokens : ∀ (items : List Node) (more : List Token), Token.Separated more →
    Follows (itemTokens items ++ more)
  | [], _, hmore => follows_mark rfl hmore
  | item :: rest, more, hmore => by
      rw [itemTokens, List.cons_append, List.append_assoc]
      exact follows_mark rfl (separated_tokens item _ (follows_itemTokens rest more hmore))
/-- What ends an object can stand after a value. -/
theorem follows_memberTokens : ∀ (members : List Member) (more : List Token), Token.Separated more →
    Follows (memberTokens members ++ more)
  | [], _, hmore => follows_mark rfl hmore
  | (_, value) :: rest, more, hmore => by
      have hvalue := separated_tokens value _ (follows_memberTokens rest more hmore)
      rw [memberTokens, List.cons_append, List.cons_append, List.cons_append, List.append_assoc]
      exact follows_mark rfl ((follows_mark rfl hvalue).separated_cons _)
end

end Node

/-! ### The result -/

/-- **A document is read as the tree that it writes**, whatever its layout. -/
theorem Document.ofText_of_writes {s : String} {node : Node} (h : Writes s node) :
    ofText s = ⟨node, false⟩ := by
  have hseparated := node.separated_tokens [] ⟨.nil, by simp⟩
  rw [List.append_nil] at hseparated
  have htokens : Token.ofChars s.toList = node.tokens := Scanning.scan_laidOut h.laidOut hseparated []
  have hbuild := Node.build_tokens node [] [] h.whole
  rw [List.append_nil] at hbuild
  rw [ofText, htokens, ofTokens, hbuild]
  rfl

end AccessStore.Json
