/-
Nothing but documents is read as a whole tree.

The reader makes a tree of any text, but not a whole one: `Document.writes_iff` says that a text is read as a
whole tree, with nothing after it, exactly if it is a document that writes the tree.  What the scanner finds
without giving up is laid out in the text, `Scanning.laidOut_scan`; and the tokens that build a whole tree are
the tree's, because at every moment the builder could tell the tokens that it has read, `Building.read`.
-/
import AccessStore.Proofs.Grammar

namespace AccessStore.Json

/-! ### What is scanned is laid out -/

namespace Scanning

theorem run_acc (acc : List Token) (state : Scanning) (cs : List Char) :
    run acc state cs = ((run [] state cs).1 ++ acc, (run [] state cs).2) := by
  induction cs generalizing acc state with
  | nil => rfl
  | cons c cs ih =>
      rw [run_cons, run_cons, ih, ih ((state.step c).1.reverse ++ [])]
      simp

/-- The tokens that are found from here on. -/
theorem scan_acc (acc : List Token) (state : Scanning) (cs : List Char) :
    scan acc state cs = acc.reverse ++ scan [] state cs := by
  rw [scan, run_acc, scan]
  simp

theorem scan_step (state : Scanning) (c : Char) (cs : List Char) :
    scan [] state (c :: cs) = (state.step c).1 ++ scan [] (state.step c).2 cs := by
  rw [scan_cons, scan_acc]
  simp

/-- The scanner does not give up. -/
def Reads (state : Scanning) (cs : List Char) : Prop := .unreadable ∉ scan [] state cs

theorem Reads.step {state : Scanning} {c : Char} {cs : List Char} (h : Reads state (c :: cs)) :
    .unreadable ∉ (state.step c).1 ∧ Reads (state.step c).2 cs := by
  rw [Reads, scan_step, List.mem_append, not_or] at h
  exact h

/-- Within a token a step only leads on. -/
theorem Reads.of_step {state state' : Scanning} {c : Char} {cs : List Char} (h : Reads state (c :: cs))
    (hstep : state.step c = ([], state')) : Reads state' cs ∧ scan [] state (c :: cs) = scan [] state' cs := by
  have hrest := h.step.2
  rw [hstep] at hrest
  refine ⟨hrest, ?_⟩
  rw [scan_step, hstep, List.nil_append]

/-- Where a step gives up, it is not read. -/
theorem Reads.step_ne_lose {state : Scanning} {c : Char} {cs : List Char} (h : Reads state (c :: cs)) :
    state.step c ≠ lose := by
  intro hlose
  have hstep := h.step.1
  rw [hlose] at hstep
  exact hstep List.mem_cons_self

/-! ### Words -/

/-- A word is read to its end. -/
theorem reads_word {left cs : List Char} {token : Token} (hleft : left ≠ [])
    (h : Reads (.word left token) cs) :
    ∃ rest, cs = left ++ rest ∧ scan [] (.word left token) cs = token :: scan [] .between rest := by
  induction left generalizing cs with
  | nil => exact absurd rfl hleft
  | cons l left ih =>
      cases cs with
      | nil => exact absurd (List.mem_singleton_self _) h
      | cons c cs =>
          cases left with
          | nil =>
              have hstep : (word [l] token).step c = if c = l then ([token], between) else lose := rfl
              by_cases hc : c = l
              · rw [if_pos hc] at hstep
                refine ⟨cs, by rw [hc]; rfl, ?_⟩
                rw [scan_step, hstep]
                rfl
              · rw [if_neg hc] at hstep
                exact absurd hstep h.step_ne_lose
          | cons l' left =>
              have hstep : (word (l :: l' :: left) token).step c
                  = if c = l then ([], word (l' :: left) token) else lose := rfl
              by_cases hc : c = l
              · rw [if_pos hc] at hstep
                obtain ⟨hrest, hscan⟩ := h.of_step hstep
                obtain ⟨rest, rfl, hscan'⟩ := ih (by simp) hrest
                exact ⟨rest, by rw [hc]; rfl, hscan.trans hscan'⟩
              · rw [if_neg hc] at hstep
                exact absurd hstep h.step_ne_lose

/-! ### Numbers -/

/-- These characters complete a number that has come to a phase. -/
def Completes : NumberPhase → List Char → Prop
  | .sign, cs => ∃ whole fraction exponent, cs = whole ++ (fraction ++ exponent) ∧ Numeral.IsWhole whole ∧
      Numeral.IsFraction fraction ∧ Numeral.IsExponent exponent
  | .zero, cs => ∃ fraction exponent, cs = fraction ++ exponent ∧ Numeral.IsFraction fraction ∧
      Numeral.IsExponent exponent
  | .whole, cs => ∃ ds fraction exponent, cs = ds ++ (fraction ++ exponent) ∧
      (∀ d ∈ ds, d.isDigit = true) ∧ Numeral.IsFraction fraction ∧ Numeral.IsExponent exponent
  | .point, cs => ∃ ds exponent, cs = ds ++ exponent ∧ Numeral.AreDigits ds ∧ Numeral.IsExponent exponent
  | .fraction, cs => ∃ ds exponent, cs = ds ++ exponent ∧ (∀ d ∈ ds, d.isDigit = true) ∧
      Numeral.IsExponent exponent
  | .mark, cs => ∃ sign ds, cs = sign ++ ds ∧ (sign = [] ∨ sign = ['+'] ∨ sign = ['-']) ∧
      Numeral.AreDigits ds
  | .markSign, cs => Numeral.AreDigits cs
  | .exponent, cs => ∀ d ∈ cs, d.isDigit = true

theorem completes_nil {phase : NumberPhase} (h : phase.isComplete = true) : Completes phase [] := by
  cases phase with
  | zero => exact ⟨[], [], rfl, .none, .none⟩
  | whole => exact ⟨[], [], [], rfl, by simp, .none, .none⟩
  | fraction => exact ⟨[], [], rfl, by simp, .none⟩
  | exponent => exact List.forall_mem_nil _
  | _ => cases h

theorem areDigits_cons {d : Char} {ds : List Char} (hd : d.isDigit = true)
    (hds : ∀ d ∈ ds, d.isDigit = true) : Numeral.AreDigits (d :: ds) :=
  ⟨by simp, List.forall_mem_cons.mpr ⟨hd, hds⟩⟩

/-- What completes a number after its exponent's letter makes an exponent. -/
theorem isExponent_of_completes {c : Char} {cs : List Char} (hc : c = 'e' ∨ c = 'E')
    (h : Completes .mark cs) : Numeral.IsExponent (c :: cs) := by
  obtain ⟨sign, ds, rfl, hsign, hds⟩ := h
  exact .some hc hsign hds

/-- What follows the digits before the point. -/
theorem completes_afterWhole {c : Char} {phase : NumberPhase} {cs : List Char}
    (hc : NumberPhase.step.afterWhole c = .more phase) (h : Completes phase cs) :
    ∃ fraction exponent, c :: cs = fraction ++ exponent ∧ Numeral.IsFraction fraction ∧
      Numeral.IsExponent exponent := by
  unfold NumberPhase.step.afterWhole at hc
  split at hc
  · rename_i hpoint
    obtain rfl := NumberStep.more.inj hc
    obtain ⟨ds, exponent, rfl, hds, hexponent⟩ := h
    exact ⟨'.' :: ds, exponent, by rw [hpoint]; rfl, .some hds, hexponent⟩
  · split at hc
    · rename_i hmark
      obtain rfl := NumberStep.more.inj hc
      exact ⟨[], c :: cs, rfl, .none, isExponent_of_completes (by simpa using hmark) h⟩
    · cases hc

/-- What completes a number one character later completes it with this character. -/
theorem completes_cons {phase phase' : NumberPhase} {c : Char} {cs : List Char}
    (hc : phase.step c = .more phase') (h : Completes phase' cs) : Completes phase (c :: cs) := by
  cases phase with
  | sign =>
      simp only [NumberPhase.step] at hc
      split at hc
      · rename_i hzero
        obtain rfl := NumberStep.more.inj hc
        obtain ⟨fraction, exponent, rfl, hfraction, hexponent⟩ := h
        exact ⟨['0'], fraction, exponent, by rw [hzero]; rfl, .zero, hfraction, hexponent⟩
      · split at hc
        · rename_i hzero hdigit
          obtain rfl := NumberStep.more.inj hc
          obtain ⟨ds, fraction, exponent, rfl, hds, hfraction, hexponent⟩ := h
          exact ⟨c :: ds, fraction, exponent, rfl, .digits hdigit hzero hds, hfraction, hexponent⟩
        · cases hc
  | zero =>
      simp only [NumberPhase.step] at hc
      split at hc
      · cases hc
      · exact completes_afterWhole hc h
  | whole =>
      simp only [NumberPhase.step] at hc
      split at hc
      · rename_i hdigit
        obtain rfl := NumberStep.more.inj hc
        obtain ⟨ds, fraction, exponent, rfl, hds, hrest⟩ := h
        exact ⟨c :: ds, fraction, exponent, rfl, List.forall_mem_cons.mpr ⟨hdigit, hds⟩, hrest⟩
      · obtain ⟨fraction, exponent, heq, hrest⟩ := completes_afterWhole hc h
        exact ⟨[], fraction, exponent, heq, by simp, hrest⟩
  | point =>
      simp only [NumberPhase.step] at hc
      split at hc
      · rename_i hdigit
        obtain rfl := NumberStep.more.inj hc
        obtain ⟨ds, exponent, rfl, hds, hexponent⟩ := h
        exact ⟨c :: ds, exponent, rfl, areDigits_cons hdigit hds, hexponent⟩
      · cases hc
  | fraction =>
      simp only [NumberPhase.step] at hc
      split at hc
      · rename_i hdigit
        obtain rfl := NumberStep.more.inj hc
        obtain ⟨ds, exponent, rfl, hds, hexponent⟩ := h
        exact ⟨c :: ds, exponent, rfl, List.forall_mem_cons.mpr ⟨hdigit, hds⟩, hexponent⟩
      · split at hc
        · rename_i hmark
          obtain rfl := NumberStep.more.inj hc
          exact ⟨[], c :: cs, rfl, by simp, isExponent_of_completes (by simpa using hmark) h⟩
        · cases hc
  | mark =>
      simp only [NumberPhase.step] at hc
      split at hc
      · rename_i hdigit
        obtain rfl := NumberStep.more.inj hc
        exact ⟨[], c :: cs, rfl, .inl rfl, areDigits_cons hdigit h⟩
      · split at hc
        · rename_i hsign
          obtain rfl := NumberStep.more.inj hc
          have hsign : c = '+' ∨ c = '-' := by simpa using hsign
          exact ⟨[c], cs, rfl, .inr (hsign.imp (by rintro rfl; rfl) (by rintro rfl; rfl)), h⟩
        · cases hc
  | markSign =>
      simp only [NumberPhase.step] at hc
      split at hc
      · rename_i hdigit
        obtain rfl := NumberStep.more.inj hc
        exact areDigits_cons hdigit h
      · cases hc
  | exponent =>
      simp only [NumberPhase.step] at hc
      split at hc
      · rename_i hdigit
        obtain rfl := NumberStep.more.inj hc
        exact List.forall_mem_cons.mpr ⟨hdigit, h⟩
      · cases hc

/-- A number may end where a character completes it. -/
theorem isComplete_of_step {phase : NumberPhase} {c : Char} (h : phase.step c = .complete) :
    phase.isComplete = true := by
  cases phase with
  | zero | whole | fraction | exponent => rfl
  | sign | point | mark | markSign =>
      simp only [NumberPhase.step] at h
      split at h
      · cases h
      · first
          | cases h
          | split at h <;> cases h

/-- A number is read to where it is complete. -/
theorem reads_number {phase : NumberPhase} {spelling cs : List Char}
    (h : Reads (.number phase spelling) cs) :
    ∃ more rest, cs = more ++ rest ∧ Completes phase more ∧
      scan [] (.number phase spelling) cs
        = .number (spelling.reverse ++ more) :: scan [] .between rest := by
  induction cs generalizing phase spelling with
  | nil =>
      cases hphase : phase.isComplete with
      | true =>
          refine ⟨[], [], rfl, completes_nil hphase, ?_⟩
          simp [scan, run, finish, hphase]
      | false =>
          refine absurd ?_ h
          simp [scan, run, finish, hphase]
  | cons c cs ih =>
      cases hc : phase.step c with
      | more phase' =>
          have hstep : (number phase spelling).step c = ([], .number phase' (c :: spelling)) := by
            rw [step, hc]
          obtain ⟨hrest, hscan⟩ := h.of_step hstep
          obtain ⟨more, rest, rfl, hmore, hscan'⟩ := ih hrest
          refine ⟨c :: more, rest, rfl, completes_cons hc hmore, ?_⟩
          rw [hscan, hscan', List.reverse_cons, List.append_assoc]
          rfl
      | complete =>
          have hstep : (number phase spelling).step c
              = (.number spelling.reverse :: (start c).1, (start c).2) := by
            rw [step, hc]
          refine ⟨[], c :: cs, rfl, completes_nil (isComplete_of_step hc), ?_⟩
          rw [scan_step, hstep, scan_step, List.append_nil]
          rfl
      | broken =>
          have hstep : (number phase spelling).step c = lose := by
            rw [step, hc]
          exact absurd hstep h.step_ne_lose

/-! ### Texts -/

/-- A digit of a character's number is read. -/
theorem reads_hex {pieces : List Piece} {left value : Nat} {cs : List Char}
    (h : Reads (.hex pieces left value) cs) :
    ∃ c n rest, cs = c :: rest ∧ Text.hexValue? c = some n ∧
      (hex pieces left value).step c = if left ≤ 1 then ([], text (.unit (value * 16 + n) :: pieces))
        else ([], hex pieces (left - 1) (value * 16 + n)) := by
  cases cs with
  | nil => exact absurd (List.mem_singleton_self _) h
  | cons c rest =>
      cases hc : Text.hexValue? c with
      | none =>
          have hstep : (hex pieces left value).step c = lose := by
            rw [step, hc]
          exact absurd hstep h.step_ne_lose
      | some n =>
          refine ⟨c, n, rest, rfl, hc, ?_⟩
          rw [step, hc]

/-- The beginning of a text's content spells this piece, and the scanner goes on after it. -/
structure Begins (pieces : List Piece) (cs : List Char) (piece : Piece) (rest : List Char) : Prop where
  spelled : ∃ spelling, spelling ≠ [] ∧ cs = spelling ++ rest ∧
    ∀ body more, Piece.Spelled body more → Piece.Spelled (spelling ++ body) (piece :: more)
  reads : Reads (.text (piece :: pieces)) rest
  scan : scan [] (.text pieces) cs = Scanning.scan [] (.text (piece :: pieces)) rest

/-- After a backslash there is a letter or a number. -/
theorem begins_escape {pieces : List Piece} {cs : List Char} (h : Reads (.text pieces) ('\\' :: cs)) :
    ∃ piece rest, Begins pieces ('\\' :: cs) piece rest := by
  have hstep : (text pieces).step '\\' = ([], escape pieces) := rfl
  obtain ⟨h, hscan⟩ := h.of_step hstep
  cases cs with
  | nil => exact absurd (List.mem_singleton_self _) h
  | cons letter cs =>
      by_cases hu : letter = 'u'
      · have hstep : (escape pieces).step letter = ([], hex pieces 4 0) := if_pos hu
        obtain ⟨h, hscan₀⟩ := h.of_step hstep
        obtain ⟨a, i, _, rfl, ha, hstep⟩ := reads_hex h
        obtain ⟨h, hscan₁⟩ := h.of_step hstep
        obtain ⟨b, j, _, rfl, hb, hstep⟩ := reads_hex h
        obtain ⟨h, hscan₂⟩ := h.of_step hstep
        obtain ⟨c, k, _, rfl, hc, hstep⟩ := reads_hex h
        obtain ⟨h, hscan₃⟩ := h.of_step hstep
        obtain ⟨d, l, rest, rfl, hd, hstep⟩ := reads_hex h
        obtain ⟨h, hscan₄⟩ := h.of_step hstep
        rw [Nat.zero_mul, Nat.zero_add] at h hscan₄
        refine ⟨_, rest, ⟨['\\', 'u', a, b, c, d], by simp, by rw [hu]; rfl, ?_⟩, h, ?_⟩
        · exact fun body more hbody => .numbered ha hb hc hd hbody
        · rw [hscan, hscan₀, hscan₁, hscan₂, hscan₃, Nat.zero_mul, Nat.zero_add]
          exact hscan₄
      · cases hletter : escaped? letter with
        | none =>
            have hstep : (escape pieces).step letter = lose := by
              rw [step, if_neg hu, hletter]
            exact absurd hstep h.step_ne_lose
        | some c =>
            have hstep : (escape pieces).step letter = ([], text (.char c :: pieces)) := by
              rw [step, if_neg hu, hletter]
            obtain ⟨h, hscan'⟩ := h.of_step hstep
            refine ⟨_, cs, ⟨['\\', letter], by simp, rfl, ?_⟩, h, hscan.trans hscan'⟩
            exact fun body more hbody => .named hletter hbody

/-- A text ends with a quote, or there is one more piece. -/
theorem reads_piece {pieces : List Piece} {cs : List Char} (h : Reads (.text pieces) cs) :
    (∃ rest, cs = '"' :: rest ∧ scan [] (.text pieces) cs = closeText pieces :: scan [] .between rest) ∨
      ∃ piece rest, Begins pieces cs piece rest := by
  cases cs with
  | nil => exact absurd (List.mem_singleton_self _) h
  | cons c cs =>
      by_cases hquote : c = '"'
      · have hstep : (text pieces).step c = ([closeText pieces], between) := if_pos hquote
        refine .inl ⟨cs, by rw [hquote], ?_⟩
        rw [scan_step, hstep]
        rfl
      by_cases hslash : c = '\\'
      · subst hslash
        exact .inr (begins_escape h)
      by_cases hcontrol : c.toNat < 0x20
      · have hstep : (text pieces).step c = lose := by
          rw [step, if_neg hquote, if_neg hslash, if_pos hcontrol]
        exact absurd hstep h.step_ne_lose
      · have hstep : (text pieces).step c = ([], text (.char c :: pieces)) := by
          rw [step, if_neg hquote, if_neg hslash, if_neg hcontrol]
        obtain ⟨h, hscan⟩ := h.of_step hstep
        refine .inr ⟨_, cs, ⟨[c], by simp, rfl, ?_⟩, h, hscan⟩
        exact fun body more hbody => .plain hquote hslash (Nat.not_lt.mp hcontrol) hbody

/-- A text is read to its closing quote. -/
theorem reads_text {pieces : List Piece} {cs : List Char} (h : Reads (.text pieces) cs) :
    ∃ body more rest, cs = body ++ '"' :: rest ∧ Piece.Spelled body more ∧
      scan [] (.text pieces) cs = closeText (more.reverse ++ pieces) :: scan [] .between rest := by
  induction hn : cs.length using Nat.strongRecOn generalizing pieces cs with
  | ind n ih =>
      subst hn
      rcases reads_piece h with ⟨rest, rfl, hscan⟩ |
        ⟨piece, rest, ⟨spelling, hne, rfl, hspelled⟩, hreads, hscan⟩
      · exact ⟨[], [], rest, rfl, .nil, hscan⟩
      · have hlength : rest.length < (spelling ++ rest).length := by
          rw [List.length_append]
          have := List.length_pos_iff.mpr hne
          omega
        obtain ⟨body, more, rest, rfl, hbody, hscan'⟩ := ih _ hlength hreads rfl
        refine ⟨spelling ++ body, piece :: more, rest, by rw [List.append_assoc], hspelled body more hbody, ?_⟩
        rw [hscan, hscan', List.reverse_cons, List.append_assoc]
        rfl

/-! ### Layouts -/

/-- What a character between tokens starts. -/
inductive Starts (c : Char) : List Token × Scanning → Prop
  | space (h : Token.IsSpace c) : Starts c ([], between)
  | mark {token : Token} (h : Token.Spelled [c] token) : Starts c ([token], between)
  | text (h : c = '"') : Starts c ([], .text [])
  | word {left : List Char} {token : Token} (hleft : left ≠ []) (h : Token.Spelled (c :: left) token) :
      Starts c ([], .word left token)
  | number {phase : NumberPhase} (h : ∀ more, Completes phase more → Numeral.IsSpelling (c :: more)) :
      Starts c ([], .number phase [c])
  | lost : Starts c lose

theorem starts (c : Char) : Starts c (start c) := by
  unfold start
  split
  · exact .space (.inl rfl)
  · exact .space (.inr (.inl rfl))
  · exact .space (.inr (.inr (.inl rfl)))
  · exact .space (.inr (.inr (.inr rfl)))
  · exact .mark .openArray
  · exact .mark .closeArray
  · exact .mark .openObject
  · exact .mark .closeObject
  · exact .mark .comma
  · exact .mark .colon
  · exact .text rfl
  · exact .word (by simp) .null
  · exact .word (by simp) .yes
  · exact .word (by simp) .no
  · refine .number ?_
    rintro _ ⟨whole, fraction, exponent, rfl, hwhole, hfraction, hexponent⟩
    show Numeral.IsSpelling (['-'] ++ (whole ++ (fraction ++ exponent)))
    exact .parts (.inr rfl) hwhole hfraction hexponent
  · refine .number ?_
    rintro _ ⟨fraction, exponent, rfl, hfraction, hexponent⟩
    show Numeral.IsSpelling ([] ++ (['0'] ++ (fraction ++ exponent)))
    exact .parts (.inl rfl) .zero hfraction hexponent
  · split
    · rename_i hzero hdigit
      refine .number ?_
      rintro _ ⟨ds, fraction, exponent, rfl, hds, hfraction, hexponent⟩
      show Numeral.IsSpelling ([] ++ (c :: ds ++ (fraction ++ exponent)))
      exact .parts (.inl rfl) (.digits hdigit hzero hds) hfraction hexponent
    · exact .lost

theorem laidOut_space {c : Char} {cs : List Char} {tokens : List Token} (hc : Token.IsSpace c)
    (h : Token.LaidOut tokens cs) : Token.LaidOut tokens (c :: cs) := by
  cases h with
  | nil hspace => exact .nil (List.forall_mem_cons.mpr ⟨hc, hspace⟩)
  | cons hspace hspelled hrest =>
      exact .cons (List.forall_mem_cons.mpr ⟨hc, hspace⟩) hspelled hrest

/-- **What is scanned without giving up is a layout of the tokens that are found.** -/
theorem laidOut_scan {cs : List Char} (h : Reads .between cs) :
    Token.LaidOut (scan [] .between cs) cs := by
  induction hn : cs.length using Nat.strongRecOn generalizing cs with
  | ind n ih =>
      subst hn
      have hrest {token : Token} {spelling rest : List Char} (hne : spelling ≠ []) (hcs : cs = spelling ++ rest)
          (hspelled : Token.Spelled spelling token)
          (hscan : scan [] .between cs = token :: scan [] .between rest) :
          Token.LaidOut (scan [] .between cs) cs := by
        have hreads : Reads .between rest := by
          rw [Reads, hscan] at h
          exact fun hmem => h (List.mem_cons_of_mem _ hmem)
        have hlength : rest.length < cs.length := by
          rw [hcs, List.length_append]
          have := List.length_pos_iff.mpr hne
          omega
        rw [hscan, hcs]
        exact (ih _ hlength hreads rfl).spelled hspelled
      cases cs with
      | nil => exact .nil (List.forall_mem_nil _)
      | cons c cs =>
          have hstart := starts c
          have hstep : between.step c = start c := rfl
          generalize start c = started at hstart hstep
          cases hstart with
          | space hc =>
              obtain ⟨hreads, hscan⟩ := h.of_step hstep
              rw [hscan]
              exact laidOut_space hc (ih _ (by simp) hreads rfl)
          | mark hspelled =>
              refine hrest (by simp) rfl hspelled ?_
              rw [scan_step, hstep]
              rfl
          | text hc =>
              obtain ⟨hreads, hscan⟩ := h.of_step hstep
              obtain ⟨body, more, rest, rfl, hbody, hscan'⟩ := reads_text hreads
              have hcs : c :: (body ++ '"' :: rest) = '"' :: (body ++ ['"']) ++ rest := by
                simp [hc]
              refine hrest (by simp) hcs (.text hbody) ?_
              rw [hscan, hscan', closeText, List.append_nil, List.reverse_reverse]
          | @word left token hleft hspelled =>
              obtain ⟨hreads, hscan⟩ := h.of_step hstep
              obtain ⟨rest, rfl, hscan'⟩ := reads_word hleft hreads
              exact hrest (by simp) rfl hspelled (hscan.trans hscan')
          | number hcomplete =>
              obtain ⟨hreads, hscan⟩ := h.of_step hstep
              obtain ⟨more, rest, rfl, hmore, hscan'⟩ := reads_number hreads
              exact hrest (by simp) rfl (.number (hcomplete more hmore)) (hscan.trans hscan')
          | lost => exact absurd hstep h.step_ne_lose

end Scanning

/-! ### What is built of tokens has these tokens -/

namespace Node

/-- The tokens of items that are each followed by a comma. -/
def listed (items : List Node) : List Token := items.flatMap fun item => item.tokens ++ [.comma]

/-- The tokens of members that are each followed by a comma. -/
def given (members : List Member) : List Token :=
  members.flatMap fun m => .text m.1 :: .colon :: (m.2.tokens ++ [.comma])

theorem tokens_itemTokens (first last : Node) (items : List Node) :
    first.tokens ++ itemTokens (items ++ [last]) = listed (first :: items) ++ (last.tokens ++ [.closeArray]) := by
  induction items generalizing first with
  | nil => simp [itemTokens, listed]
  | cons item items ih =>
      have hrest := ih item
      rw [List.cons_append, itemTokens, hrest]
      simp [listed]

theorem tokens_memberTokens (name name' : Option String) (first last : Node) (members : List Member) :
    .text name :: .colon :: (first.tokens ++ memberTokens (members ++ [(name', last)]))
      = given ((name, first) :: members) ++ .text name' :: .colon :: (last.tokens ++ [.closeObject]) := by
  induction members generalizing name first with
  | nil => simp [memberTokens, given]
  | cons m members ih =>
      obtain ⟨name₁, node⟩ := m
      have hrest := ih name₁ node
      rw [List.cons_append, memberTokens, hrest]
      simp [given]

/-- The tokens of an array that has been read up to its last item. -/
theorem tokens_array (items : List Node) (last : Node) (ending : Ending) :
    (array (items ++ [last]) ending).tokens
      = .openArray :: (listed items ++ (last.tokens ++ [.closeArray])) := by
  cases items with
  | nil => simp [tokens, itemTokens, listed]
  | cons first items => rw [List.cons_append, tokens, tokens_itemTokens]

/-- The tokens of an object that has been read up to its last member. -/
theorem tokens_object (members : List Member) (name : Option String) (last : Node) (ending : Ending) :
    (object (members ++ [(name, last)]) ending).tokens
      = .openObject :: (given members ++ .text name :: .colon :: (last.tokens ++ [.closeObject])) := by
  cases members with
  | nil => simp [tokens, memberTokens, given]
  | cons m members =>
      obtain ⟨name₁, first⟩ := m
      rw [List.cons_append, tokens, tokens_memberTokens]

/-- The tokens that have opened what is still open. -/
def opened : List Frame → List Token
  | [] => []
  | .items before :: above => opened above ++ .openArray :: listed before.reverse
  | .members before name :: above =>
      opened above ++ .openObject :: (given before.reverse ++ [.text name, .colon])

/-- The tokens that have been read, as long as they make a tree. -/
def Building.read? : Building → Option (List Token)
  | .value above => some (opened above)
  | .firstItem above => some (opened above ++ [.openArray])
  | .firstName above => some (opened above ++ [.openObject])
  | .name before above => some (opened above ++ .openObject :: given before.reverse)
  | .colon before called above =>
      some (opened above ++ .openObject :: (given before.reverse ++ [.text called]))
  | .after node above => some (opened above ++ node.tokens)
  | .excess _ | .broken _ => none

theorem read?_begin {token : Token} {above : List Frame} {found : List Token}
    (h : (begin token above).read? = some found) : found = opened above ++ [token] := by
  cases token <;> first | exact (Option.some.inj h).symm | cases h

/-- A step reads one token. -/
theorem read?_step {state : Building} {token : Token} {found : List Token}
    (h : (step state token).read? = some found) :
    ∃ before, state.read? = some before ∧ found = before ++ [token] := by
  cases state with
  | value above => exact ⟨_, rfl, read?_begin h⟩
  | firstItem above =>
      refine ⟨_, rfl, ?_⟩
      by_cases hclose : token = .closeArray
      · subst hclose
        rw [← Option.some.inj h]
        simp [tokens]
      · rw [step_firstItem hclose] at h
        rw [read?_begin h]
        simp [opened, listed]
  | firstName above =>
      refine ⟨_, rfl, ?_⟩
      cases token with
      | text content =>
          rw [← Option.some.inj h]
          simp [given]
      | closeObject =>
          rw [← Option.some.inj h]
          simp [tokens]
      | _ => cases h
  | name before above =>
      refine ⟨_, rfl, ?_⟩
      cases token with
      | text content =>
          rw [← Option.some.inj h]
          simp
      | _ => cases h
  | colon before called above =>
      refine ⟨_, rfl, ?_⟩
      cases token with
      | colon =>
          rw [← Option.some.inj h]
          simp [opened]
      | _ => cases h
  | after node above =>
      refine ⟨_, rfl, ?_⟩
      cases above with
      | nil => cases h
      | cons frame above =>
          cases frame with
          | items before =>
              cases token with
              | comma =>
                  rw [← Option.some.inj h]
                  simp [opened, listed]
              | closeArray =>
                  rw [← Option.some.inj h, List.reverse_cons, tokens_array]
                  simp [opened]
              | _ => cases h
          | members before name =>
              cases token with
              | comma =>
                  rw [← Option.some.inj h]
                  simp [opened, given]
              | closeObject =>
                  rw [← Option.some.inj h, List.reverse_cons, tokens_object]
                  simp [opened]
              | _ => cases h
  | excess node => cases h
  | broken node => cases h

/-- What the builder could tell at the end it has read from the beginning on. -/
theorem read?_build {state : Building} {more found : List Token}
    (h : (build state more).read? = some found) :
    ∃ before, state.read? = some before ∧ found = before ++ more := by
  induction more generalizing state with
  | nil => exact ⟨found, h, (List.append_nil _).symm⟩
  | cons token more ih =>
      rw [build_cons] at h
      obtain ⟨before, hbefore, rfl⟩ := ih h
      obtain ⟨earlier, hearlier, rfl⟩ := read?_step hbefore
      exact ⟨earlier, hearlier, by rw [List.append_assoc]; rfl⟩

/-- Nothing is made of what cannot be read. -/
theorem read?_step_unreadable (state : Building) : (step state .unreadable).read? = none := by
  cases state with
  | after node above =>
      cases above with
      | nil => rfl
      | cons frame above => cases frame <;> rfl
  | _ => rfl

/-! ### What is broken off is not whole -/

theorem isWhole_collapse {node : Node} (above : List Frame) (h : node.isWhole = false) :
    (collapse node above).isWhole = false := by
  induction above generalizing node with
  | nil => exact h
  | cons frame above ih => cases frame <;> exact ih (by simp [isWhole])

theorem isWhole_collapse_cons (node : Node) (frame : Frame) (above : List Frame) :
    (collapse node (frame :: above)).isWhole = false := by
  cases frame <;> exact isWhole_collapse above (by simp [isWhole])

/-- A tree that broke off is not whole. -/
def Building.Sound : Building → Prop
  | .broken node => node.isWhole = false
  | _ => True

theorem sound_begin (token : Token) (above : List Frame) : (begin token above).Sound := by
  cases token <;> first | exact trivial | exact isWhole_collapse above rfl

theorem sound_step {state : Building} (token : Token) (h : state.Sound) : (step state token).Sound := by
  cases state with
  | value above => exact sound_begin token above
  | firstItem above =>
      by_cases hclose : token = .closeArray
      · subst hclose
        trivial
      · rw [step_firstItem hclose]
        exact sound_begin token (.items [] :: above)
  | firstName above =>
      cases token <;> first | exact trivial | exact isWhole_collapse above (by simp [isWhole])
  | name before above =>
      cases token <;> first | exact trivial | exact isWhole_collapse above (by simp [isWhole])
  | colon before called above =>
      cases token <;> first | exact trivial | exact isWhole_collapse_cons _ _ above
  | after node above =>
      cases above with
      | nil => trivial
      | cons frame above =>
          cases frame <;> cases token <;> first | exact trivial | exact isWhole_collapse_cons _ _ above
  | excess node => trivial
  | broken node => exact h

theorem sound_build {state : Building} (tokens : List Token) (h : state.Sound) :
    (build state tokens).Sound := by
  induction tokens generalizing state with
  | nil => exact h
  | cons token tokens ih => exact ih (sound_step token h)

/-- A tree is whole where the tokens end if they end with it. -/
theorem eq_after_of_isWhole {state : Building} (h : state.Sound) (hwhole : (finish state).isWhole = true) :
    state = .after (finish state) [] ∨ state = .excess (finish state) := by
  have hnot {node : Node} (hnode : node.isWhole = false) (heq : finish state = node) : False := by
    rw [heq, hnode] at hwhole
    cases hwhole
  cases state with
  | after node above =>
      cases above with
      | nil => exact .inl rfl
      | cons frame above => exact (hnot (isWhole_collapse_cons node frame above) rfl).elim
  | excess node => exact .inr rfl
  | broken node => exact (hnot h rfl).elim
  | value above => exact (hnot (isWhole_collapse above rfl) rfl).elim
  | firstItem above => exact (hnot (isWhole_collapse above (by simp [isWhole])) rfl).elim
  | firstName above => exact (hnot (isWhole_collapse above (by simp [isWhole])) rfl).elim
  | name before above => exact (hnot (isWhole_collapse above (by simp [isWhole])) rfl).elim
  | colon before called above => exact (hnot (isWhole_collapse_cons _ _ above) rfl).elim

end Node

/-! ### The result -/

namespace Document

variable {s : String} {node : Node}

/-- The tokens of a text that is read as a whole tree. -/
theorem tokens_of_ofText (h : ofText s = ⟨node, false⟩) (hwhole : node.isWhole = true) :
    Token.ofChars s.toList = node.tokens ∧ .unreadable ∉ node.tokens := by
  have hroot : Node.finish (Node.build (.value []) (Token.ofChars s.toList)) = node :=
    congrArg Document.root h
  have hexcess : (ofText s).excess = false := congrArg Document.excess h
  have hsound : (Node.build (.value []) (Token.ofChars s.toList)).Sound := Node.sound_build _ trivial
  have hafter : Node.build (.value []) (Token.ofChars s.toList) = .after node [] := by
    rcases Node.eq_after_of_isWhole hsound (by rwa [hroot]) with heq | heq
    · rwa [hroot] at heq
    · rw [ofText, ofTokens, heq] at hexcess
      cases hexcess
  have hread : (Node.build (.value []) (Token.ofChars s.toList)).read? = some node.tokens := by
    rw [hafter]
    rfl
  obtain ⟨before, hbefore, htokens⟩ := Node.read?_build hread
  obtain rfl : [] = before := Option.some.inj hbefore
  refine ⟨htokens.symm, ?_⟩
  intro hmem
  -- No tree is made any more once a token could not be read.
  obtain ⟨earlier, later, hsplit⟩ := List.append_of_mem hmem
  rw [htokens, List.nil_append] at hsplit
  rw [hsplit, Node.build, List.foldl_append, List.foldl_cons] at hread
  obtain ⟨_, hlost, -⟩ := Node.read?_build hread
  rw [Node.read?_step_unreadable] at hlost
  cases hlost

/-- **A text is read as a whole tree exactly if it is a document that writes the tree.** -/
theorem writes_iff : Writes s node ↔ ofText s = ⟨node, false⟩ ∧ node.isWhole = true := by
  constructor
  · intro h
    exact ⟨ofText_of_writes h, h.whole⟩
  · rintro ⟨h, hwhole⟩
    obtain ⟨htokens, hreads⟩ := tokens_of_ofText h hwhole
    refine ⟨hwhole, ?_⟩
    rw [← htokens] at hreads ⊢
    exact Scanning.laidOut_scan hreads

end Document

end AccessStore.Json
