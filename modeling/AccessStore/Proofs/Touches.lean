/-
What is done to a record in the course of time.

A record is written or removed, and each of these is a touch.  The version of a record is
a function of its touches, `Touch.applyAll`: the first writing makes it one, every
further one adds one, and a removal leaves none.  What touches a record is read off what
was committed, where inserting and overwriting are no longer told apart.

The numbering starts anew after a removal.  So a version can come back, and
`applyAll_eq_iff` says exactly when it does.
-/
import AccessStore.Proofs.Commits

namespace AccessStore

/-- What can be done to a record. -/
inductive Touch
  /-- It was added or updated. -/
  | written
  | removed
  deriving DecidableEq, Repr

namespace Touch

/-- The version of a record after a touch, none if there is no record. -/
def apply : Option Int → Touch → Option Int
  | version?, written => some (version?.getD 0 + 1)
  | _, removed => none

/-- The version of a record after some touches. -/
def applyAll (version? : Option Int) (touches : List Touch) : Option Int :=
  touches.foldl apply version?

variable {touches : List Touch}

theorem applyAll_append (version? : Option Int) (ts ts' : List Touch) :
    applyAll version? (ts ++ ts') = applyAll (applyAll version? ts) ts' :=
  List.foldl_append

/-- Without a removal each touch adds one. -/
theorem applyAll_some (h : removed ∉ touches) (v : Int) :
    applyAll (some v) touches = some (v + touches.length) := by
  induction touches generalizing v with
  | nil => simp [applyAll]
  | cons t rest ih =>
      cases t with
      | removed => simp at h
      | written =>
          have hrest : removed ∉ rest := fun hmem => h (List.mem_cons_of_mem _ hmem)
          show applyAll (some (v + 1)) rest = _
          rw [ih hrest, List.length_cons]
          congr 1
          omega

/-- A record that is added anew starts at one. -/
theorem applyAll_none (h : removed ∉ touches) :
    applyAll none touches = if touches = [] then none else some (touches.length : Int) := by
  cases touches with
  | nil => rfl
  | cons t rest =>
      cases t with
      | removed => simp at h
      | written =>
          have hrest : removed ∉ rest := fun hmem => h (List.mem_cons_of_mem _ hmem)
          show applyAll (some 1) rest = _
          rw [applyAll_some hrest, if_neg (by simp), List.length_cons]
          congr 1
          omega

/-- Where a record was removed at all, it was removed for the last time. -/
theorem last_removed (h : removed ∈ touches) :
    ∃ pre post, touches = pre ++ removed :: post ∧ removed ∉ post := by
  induction touches with
  | nil => simp at h
  | cons t rest ih =>
      by_cases hrest : removed ∈ rest
      · obtain ⟨pre, post, hsplit, hpost⟩ := ih hrest
        exact ⟨t :: pre, post, by rw [hsplit, List.cons_append], hpost⟩
      · rcases List.mem_cons.mp h with rfl | h
        · exact ⟨[], rest, rfl, hrest⟩
        · exact absurd h hrest

/-- The record was removed, and after its last removal added again and written until it had this
version. -/
def Recreated (version : Int) (touches : List Touch) : Prop :=
  ∃ pre post, touches = pre ++ removed :: post ∧ removed ∉ post ∧ post ≠ [] ∧
    (post.length : Int) = version

/-- What was before a removal does not matter after it. -/
theorem applyAll_removed (version? : Option Int) (pre post : List Touch) :
    applyAll version? (pre ++ removed :: post) = applyAll none post :=
  applyAll_append _ _ _

/-- **A version comes back only if the record was made anew.** -/
theorem applyAll_eq_iff {v : Int} :
    applyAll (some v) touches = some v ↔ touches = [] ∨ Recreated v touches := by
  constructor
  · intro hv
    by_cases h : removed ∈ touches
    · obtain ⟨pre, post, rfl, hpost⟩ := last_removed h
      rw [applyAll_removed, applyAll_none hpost] at hv
      split at hv
      · simp at hv
      · rename_i hne
        exact .inr ⟨pre, post, rfl, hpost, hne, Option.some.inj hv⟩
    · rw [applyAll_some h, Option.some.injEq] at hv
      have hlength : touches.length = 0 := by omega
      exact .inl (List.length_eq_zero_iff.mp hlength)
  · rintro (rfl | ⟨pre, post, rfl, hpost, hne, hlength⟩)
    · rfl
    · rw [applyAll_removed, applyAll_none hpost, if_neg hne, hlength]

end Touch

/-! ### What commits touch -/

/-- What was done to each record, the latest last. -/
abbrev Touches := Kind → Key → List Touch

/-- A record is written when it is inserted and when it is overwritten. -/
def Commit.touch : Commit → Touch
  | inserted | overwritten => .written
  | removed => .removed

/-- What was committed to each record, as far as it touches the record. -/
def Commits.touches (cs : Commits) : Touches := fun kind key => ((cs kind key).map Commit.touch).reverse

/-- The version that commits make is the one that their touches make. -/
theorem Commit.Turns.applyAll_eq {before after : Option Int} {log : List Commit}
    (h : Turns before log after) : Touch.applyAll before (log.map touch).reverse = after := by
  induction h with
  | nothing => rfl
  | inserted _ ih | overwritten _ ih | removed _ ih =>
      rw [List.map_cons, List.reverse_cons, Touch.applyAll_append, ih]
      rfl

/-- **Versions are changed by touches alone.** -/
theorem Logs.version?_eq {db db' : Database} {cs : Commits} (h : Logs db db' cs) (kind : Kind)
    (key : Key) : db'.version? kind key = Touch.applyAll (db.version? kind key) (cs.touches kind key) :=
  (h.turns kind key).applyAll_eq.symm

end AccessStore
