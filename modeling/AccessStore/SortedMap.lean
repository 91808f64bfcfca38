/-
Finite maps kept as key-ordered lists.

Tables, property lists and name sets are all finite maps whose order shows when they
are listed, so the order is part of the type: the entries are strictly increasing in
their keys.  That makes equality of maps the same as equality of look-ups
(`ext_get?`), which is what every statement about a table comes down to.  Besides
that each operation has one law through `get?`.
-/

namespace AccessStore

/-- Entries in strictly increasing order of their keys. -/
def Ascending {κ β : Type} [Ord κ] (entries : List (κ × β)) : Prop :=
  entries.Pairwise fun a b => compare a.1 b.1 = .lt

/-- A finite map from `κ` to `β`, listed in increasing order of keys. -/
structure SortedMap (κ β : Type) [Ord κ] where
  /-- The bindings, smallest key first. -/
  entries : List (κ × β)
  /-- No key is bound twice, and the order is the order of keys. -/
  ascending : Ascending entries

namespace SortedMap

variable {κ β : Type} [Ord κ] [DecidableEq κ]

instance [DecidableEq β] : DecidableEq (SortedMap κ β) := fun m n =>
  decidable_of_iff (m.entries = n.entries) (by cases m; cases n; simp)

/-! ### Entries -/

/-- The value bound to `k` in a list of entries. -/
def lookup (k : κ) : List (κ × β) → Option β
  | [] => none
  | (j, b) :: rest => if k = j then some b else lookup k rest

/-- Bind `k` at its place in the order, replacing an older binding. -/
def place (k : κ) (b : β) : List (κ × β) → List (κ × β)
  | [] => [(k, b)]
  | (j, c) :: rest =>
      match compare k j with
      | .lt => (k, b) :: (j, c) :: rest
      | .eq => (k, b) :: rest
      | .gt => (j, c) :: place k b rest

/-- Drop the binding of `k`. -/
def strike (k : κ) : List (κ × β) → List (κ × β)
  | [] => []
  | (j, c) :: rest => if k = j then rest else (j, c) :: strike k rest

omit [DecidableEq κ] in
theorem mem_place {k : κ} {b : β} {entries : List (κ × β)} {e : κ × β}
    (h : e ∈ place k b entries) : e = (k, b) ∨ e ∈ entries := by
  induction entries with
  | nil => simpa [place] using h
  | cons head rest ih =>
      obtain ⟨j, c⟩ := head
      unfold place at h
      split at h
      · simpa using h
      · rcases List.mem_cons.mp h with h | h
        · exact Or.inl h
        · exact Or.inr (List.mem_cons_of_mem _ h)
      · rcases List.mem_cons.mp h with h | h
        · exact Or.inr (h ▸ List.mem_cons_self)
        · exact (ih h).imp_right (List.mem_cons_of_mem _)

omit [Ord κ] in
theorem mem_strike {k : κ} {entries : List (κ × β)} {e : κ × β}
    (h : e ∈ strike k entries) : e ∈ entries := by
  induction entries with
  | nil => simp [strike] at h
  | cons head rest ih =>
      obtain ⟨j, c⟩ := head
      unfold strike at h
      split at h
      · exact List.mem_cons_of_mem _ h
      · rcases List.mem_cons.mp h with h | h
        · exact h ▸ List.mem_cons_self
        · exact List.mem_cons_of_mem _ (ih h)

theorem ascending_strike {k : κ} {entries : List (κ × β)} (h : Ascending entries) :
    Ascending (strike k entries) := by
  induction entries with
  | nil => exact h
  | cons head rest ih =>
      obtain ⟨j, c⟩ := head
      obtain ⟨hhead, hrest⟩ := List.pairwise_cons.mp h
      unfold strike
      split
      · exact hrest
      · exact List.pairwise_cons.mpr ⟨fun e he => hhead e (mem_strike he), ih hrest⟩

variable [Std.TransOrd κ] [Std.LawfulEqOrd κ]

omit [DecidableEq κ] [Std.TransOrd κ] in
theorem ne_of_lt {j k : κ} (h : compare j k = .lt) : j ≠ k := by
  rintro rfl
  simp at h

omit [DecidableEq κ] in
theorem ascending_place {k : κ} {b : β} {entries : List (κ × β)} (h : Ascending entries) :
    Ascending (place k b entries) := by
  induction entries with
  | nil => simp [place, Ascending]
  | cons head rest ih =>
      obtain ⟨j, c⟩ := head
      obtain ⟨hhead, hrest⟩ := List.pairwise_cons.mp h
      unfold place
      split
      · rename_i hlt
        refine List.pairwise_cons.mpr ⟨fun e he => ?_, h⟩
        rcases List.mem_cons.mp he with rfl | he
        · exact hlt
        · exact Std.TransCmp.lt_trans hlt (hhead e he)
      · rename_i heq
        have hkj : k = j := Std.LawfulEqOrd.eq_of_compare heq
        subst hkj
        exact List.pairwise_cons.mpr ⟨hhead, hrest⟩
      · rename_i hgt
        refine List.pairwise_cons.mpr ⟨fun e he => ?_, ih hrest⟩
        rcases mem_place he with rfl | he
        · exact Std.OrientedCmp.lt_of_gt hgt
        · exact hhead e he

omit [Std.TransOrd κ] in
theorem lookup_place {k i : κ} {b : β} (entries : List (κ × β)) :
    lookup i (place k b entries) = if i = k then some b else lookup i entries := by
  induction entries with
  | nil => by_cases h : i = k <;> simp [place, lookup, h]
  | cons head rest ih =>
      obtain ⟨j, c⟩ := head
      unfold place
      split
      · by_cases h : i = k <;> simp [lookup, h]
      · rename_i heq
        have hkj : k = j := Std.LawfulEqOrd.eq_of_compare heq
        subst hkj
        by_cases h : i = k <;> simp [lookup, h]
      · rename_i hgt
        have hne : k ≠ j := by
          rintro rfl
          simp at hgt
        by_cases hij : i = j
        · subst hij
          simp [lookup, Ne.symm hne]
        · simp [lookup, hij, ih]

omit [Std.TransOrd κ] in
theorem lookup_eq_none {k : κ} {entries : List (κ × β)} (h : ∀ e ∈ entries, compare k e.1 = .lt) :
    lookup k entries = none := by
  induction entries with
  | nil => rfl
  | cons head rest ih =>
      have hhead := h head List.mem_cons_self
      unfold lookup
      rw [if_neg (ne_of_lt hhead)]
      exact ih fun e he => h e (List.mem_cons_of_mem _ he)

omit [Std.TransOrd κ] in
theorem lookup_strike {k i : κ} {entries : List (κ × β)} (h : Ascending entries) :
    lookup i (strike k entries) = if i = k then none else lookup i entries := by
  induction entries with
  | nil => simp [strike, lookup]
  | cons head rest ih =>
      obtain ⟨j, c⟩ := head
      obtain ⟨hhead, hrest⟩ := List.pairwise_cons.mp h
      unfold strike
      split
      · rename_i heq
        subst heq
        by_cases hik : i = k
        · subst hik
          simp [lookup_eq_none hhead]
        · simp [lookup, hik]
      · rename_i hkj
        by_cases hij : i = j
        · subst hij
          simp [lookup, Ne.symm hkj]
        · simp [lookup, hij, ih hrest]

omit [Std.TransOrd κ] in
theorem lookup_isSome_of_mem {e : κ × β} {entries : List (κ × β)} (h : e ∈ entries)
    (ha : Ascending entries) : lookup e.1 entries = some e.2 := by
  induction entries with
  | nil => simp at h
  | cons head rest ih =>
      obtain ⟨hhead, hrest⟩ := List.pairwise_cons.mp ha
      rcases List.mem_cons.mp h with rfl | h
      · simp [lookup]
      · have hne : e.1 ≠ head.1 := (ne_of_lt (hhead e h)).symm
        simp [lookup, hne, ih h hrest]

omit [Ord κ] [Std.TransOrd κ] [Std.LawfulEqOrd κ] in
/-- What looking up finds is among the entries. -/
theorem mem_of_lookup {k : κ} {b : β} {entries : List (κ × β)} (h : lookup k entries = some b) :
    (k, b) ∈ entries := by
  induction entries with
  | nil => cases h
  | cons head rest ih =>
      unfold lookup at h
      split at h
      · rename_i hk
        rw [hk, ← Option.some.inj h]
        exact List.mem_cons_self
      · exact List.mem_cons_of_mem _ (ih h)

/-- Ascending entries are determined by what looking up finds in them. -/
theorem entries_eq_of_lookup {m n : List (κ × β)} (hm : Ascending m) (hn : Ascending n)
    (h : ∀ k, lookup k m = lookup k n) : m = n := by
  induction m generalizing n with
  | nil =>
      cases n with
      | nil => rfl
      | cons head rest =>
          have := h head.1
          simp [lookup] at this
  | cons a m ih =>
      obtain ⟨ha, hm'⟩ := List.pairwise_cons.mp hm
      cases n with
      | nil =>
          have := h a.1
          simp [lookup] at this
      | cons b n =>
          obtain ⟨hb, hn'⟩ := List.pairwise_cons.mp hn
          have hkey : a.1 = b.1 := by
            rcases hc : compare a.1 b.1 with _ | _ | _
            · have hfind : lookup a.1 (b :: n) = none := by
                refine lookup_eq_none fun e he => ?_
                rcases List.mem_cons.mp he with rfl | he
                · exact hc
                · exact Std.TransCmp.lt_trans hc (hb e he)
              have := h a.1
              rw [hfind] at this
              simp [lookup] at this
            · exact Std.LawfulEqOrd.eq_of_compare hc
            · have hc' : compare b.1 a.1 = .lt := Std.OrientedCmp.lt_of_gt hc
              have hfind : lookup b.1 (a :: m) = none := by
                refine lookup_eq_none fun e he => ?_
                rcases List.mem_cons.mp he with rfl | he
                · exact hc'
                · exact Std.TransCmp.lt_trans hc' (ha e he)
              have := h b.1
              rw [hfind] at this
              simp [lookup] at this
          have hval : a.2 = b.2 := by
            have := h a.1
            rw [hkey] at this
            simpa [lookup, hkey] using this
          have hab : a = b := Prod.ext hkey hval
          subst hab
          congr 1
          refine ih hm' hn' fun k => ?_
          by_cases hk : k = a.1
          · subst hk
            rw [lookup_eq_none ha, lookup_eq_none hb]
          · simpa [lookup, hk] using h k

/-! ### The map -/

omit [DecidableEq κ] [Std.TransOrd κ] [Std.LawfulEqOrd κ] in
/-- The map without bindings. -/
def empty : SortedMap κ β := ⟨[], List.Pairwise.nil⟩

instance : Inhabited (SortedMap κ β) := ⟨empty⟩

/-- The value bound to `k`. -/
def get? (m : SortedMap κ β) (k : κ) : Option β := lookup k m.entries

/-- Bind `k` to `b`, whatever `k` was bound to. -/
def insert (m : SortedMap κ β) (k : κ) (b : β) : SortedMap κ β :=
  ⟨place k b m.entries, ascending_place m.ascending⟩

/-- Remove the binding of `k`. -/
def erase (m : SortedMap κ β) (k : κ) : SortedMap κ β :=
  ⟨strike k m.entries, ascending_strike m.ascending⟩

/-- The bound keys, smallest first. -/
def keys (m : SortedMap κ β) : List κ := m.entries.map (·.1)

/-- Bind each pair in turn; of two with one key the later wins. -/
def ofList (pairs : List (κ × β)) : SortedMap κ β :=
  pairs.foldl (fun m p => m.insert p.1 p.2) empty

omit [Std.TransOrd κ] [Std.LawfulEqOrd κ] in
@[simp] theorem get?_empty (k : κ) : (empty : SortedMap κ β).get? k = none := rfl

theorem get?_insert (m : SortedMap κ β) (k i : κ) (b : β) :
    (m.insert k b).get? i = if i = k then some b else m.get? i :=
  lookup_place m.entries

@[simp] theorem get?_insert_self (m : SortedMap κ β) (k : κ) (b : β) :
    (m.insert k b).get? k = some b := by
  simp [get?_insert]

theorem get?_insert_ne (m : SortedMap κ β) {k i : κ} (b : β) (h : i ≠ k) :
    (m.insert k b).get? i = m.get? i := by
  simp [get?_insert, h]

omit [Std.TransOrd κ] in
theorem get?_erase (m : SortedMap κ β) (k i : κ) :
    (m.erase k).get? i = if i = k then none else m.get? i :=
  lookup_strike m.ascending

omit [Std.TransOrd κ] in
@[simp] theorem get?_erase_self (m : SortedMap κ β) (k : κ) : (m.erase k).get? k = none := by
  simp [get?_erase]

omit [Std.TransOrd κ] in
theorem get?_erase_ne (m : SortedMap κ β) {k i : κ} (h : i ≠ k) :
    (m.erase k).get? i = m.get? i := by
  simp [get?_erase, h]

/-- Two maps are equal when they bind every key alike. -/
theorem ext_get? {m n : SortedMap κ β} (h : ∀ k, m.get? k = n.get? k) : m = n := by
  obtain ⟨m, hm⟩ := m
  obtain ⟨n, hn⟩ := n
  have := entries_eq_of_lookup hm hn h
  subst this
  rfl

omit [Std.TransOrd κ] in
theorem get?_of_mem_entries {m : SortedMap κ β} {e : κ × β} (h : e ∈ m.entries) :
    m.get? e.1 = some e.2 :=
  lookup_isSome_of_mem h m.ascending

omit [Std.TransOrd κ] [Std.LawfulEqOrd κ] in
theorem mem_entries_of_get? {m : SortedMap κ β} {k : κ} {b : β} (h : m.get? k = some b) :
    (k, b) ∈ m.entries :=
  mem_of_lookup h

end SortedMap

/-- A set of names, listed in the order of their characters' code points. -/
abbrev NameSet := SortedMap String Unit

namespace NameSet

/-- The set of the listed names. -/
def ofList (names : List String) : NameSet :=
  SortedMap.ofList (names.map fun name => (name, ()))

/-- The names, in order. -/
def toList (names : NameSet) : List String := names.keys

end NameSet

end AccessStore
