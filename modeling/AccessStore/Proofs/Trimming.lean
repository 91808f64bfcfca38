/-
What trimming leaves.

A text is trimmed by looking from both ends for the first character that is not blank.  What is
left can be told without looking from anywhere: blank characters stand before it and after it, and
it neither begins nor ends with one.  No two texts are like that, so `trimChars_eq_iff` says what
trimming is.
-/
import Mathlib.Data.List.Basic
import Mathlib.Data.List.TakeWhile
import AccessStore.Text.Blank

namespace AccessStore.Text

variable {before after cs ts : List Char}

/-- These characters are left when the blank ones at both ends are taken off. -/
structure Trimmed (cs ts : List Char) : Prop where
  around : ∃ before after, cs = before ++ (ts ++ after) ∧ (∀ c ∈ before, isBlank c = true) ∧
    ∀ c ∈ after, isBlank c = true
  first : ∀ c ∈ ts.head?, isBlank c = false
  last : ∀ c ∈ ts.getLast?, isBlank c = false

/-! ### Looking from one end -/

theorem dropWhile_isBlank_append (hbefore : ∀ c ∈ before, isBlank c = true)
    (hcs : ∀ c ∈ cs.head?, isBlank c = false) : (before ++ cs).dropWhile isBlank = cs := by
  rw [List.dropWhile_append_of_pos hbefore]
  cases cs with
  | nil => rfl
  | cons c cs => rw [List.dropWhile_cons_of_neg (by simp [hcs c rfl])]

theorem isBlank_head?_dropWhile (cs : List Char) :
    ∀ c ∈ (cs.dropWhile isBlank).head?, isBlank c = false := by
  intro c hc
  have hnot := List.head?_dropWhile_not isBlank cs
  rw [Option.mem_def.mp hc] at hnot
  exact hnot

/-! ### From both ends -/

theorem trimmed_trimChars (cs : List Char) : Trimmed cs (trimChars cs) := by
  have hrest : trimChars cs ++ ((cs.dropWhile isBlank).reverse.takeWhile isBlank).reverse
      = cs.dropWhile isBlank := by
    rw [trimChars, ← List.reverse_append, List.takeWhile_append_dropWhile, List.reverse_reverse]
  refine ⟨⟨cs.takeWhile isBlank, ((cs.dropWhile isBlank).reverse.takeWhile isBlank).reverse,
    ?_, ?_, ?_⟩, ?_, ?_⟩
  · rw [hrest, List.takeWhile_append_dropWhile]
  · intro c hc
    exact List.mem_takeWhile_imp hc
  · intro c hc
    exact List.mem_takeWhile_imp (List.mem_reverse.mp hc)
  · intro c hc
    -- The first character that is left was the first one from the left.
    have hsome : trimChars cs ≠ [] := List.ne_nil_of_mem (List.mem_of_mem_head? hc)
    rw [← List.head?_append_of_ne_nil _ hsome, hrest] at hc
    exact isBlank_head?_dropWhile cs c hc
  · intro c hc
    rw [trimChars, List.getLast?_reverse] at hc
    exact isBlank_head?_dropWhile _ c hc

theorem Trimmed.trimChars_eq (h : Trimmed cs ts) : trimChars cs = ts := by
  obtain ⟨⟨before, after, rfl, hbefore, hafter⟩, hfirst, hlast⟩ := h
  by_cases hsome : ts = []
  · subst hsome
    have hblank : ∀ c ∈ before ++ after, isBlank c = true := fun c hc =>
      (List.mem_append.mp hc).elim (hbefore c) (hafter c)
    have hnothing : ((before ++ after) ++ []).dropWhile isBlank = [] :=
      dropWhile_isBlank_append hblank (by simp)
    rw [List.append_nil] at hnothing
    rw [trimChars, List.nil_append, hnothing]
    rfl
  · have hhead : ∀ c ∈ (ts ++ after).head?, isBlank c = false := by
      rwa [List.head?_append_of_ne_nil _ hsome]
    have hend : ∀ c ∈ ts.reverse.head?, isBlank c = false := by
      rwa [List.head?_reverse]
    rw [trimChars, dropWhile_isBlank_append hbefore hhead, List.reverse_append,
      dropWhile_isBlank_append (fun c hc => hafter c (List.mem_reverse.mp hc)) hend,
      List.reverse_reverse]

/-- **Trimming takes off the blank characters at both ends, and nothing else.** -/
theorem trimChars_eq_iff : trimChars cs = ts ↔ Trimmed cs ts := by
  constructor
  · rintro rfl
    exact trimmed_trimChars cs
  · exact Trimmed.trimChars_eq

theorem trim_eq_iff {s t : String} : trim s = t ↔ Trimmed s.toList t.toList := by
  rw [← trimChars_eq_iff, trim, ← String.toList_inj, String.toList_ofList]

/-- Characters of which none is blank are what is left of them among blank ones. -/
theorem trimmed_of_not_blank (hbefore : ∀ c ∈ before, isBlank c = true)
    (hafter : ∀ c ∈ after, isBlank c = true) (hts : ∀ c ∈ ts, isBlank c = false) :
    Trimmed (before ++ (ts ++ after)) ts :=
  ⟨⟨before, after, rfl, hbefore, hafter⟩, fun c hc => hts c (List.mem_of_mem_head? hc),
    fun c hc => hts c (List.mem_of_mem_getLast? hc)⟩

end AccessStore.Text
