/-
The records of a store as a versioned map.

What a client of the store sees can be told without tables, payloads and statements.  A
ledger is a list of records, each with its version, and each operation looks one of them
up, puts one in, takes one out or lists them all.  `Ledger.step` is this reference; it is
as plain as it can be and meant to be read.  A database represents a ledger if every row is
that of an entry, and `Represents.step` shows that an operation answers alike on both and
leaves them so.  Handles are taken as they come, whenever and for whatever record they were
obtained, so stale ones need no care of their own.
-/
import Mathlib.Data.List.Sort
import AccessStore.Proofs.Edits
import AccessStore.Proofs.OctetOrder
import AccessStore.Proofs.ReadBack

namespace AccessStore

/-! ### Operations -/

/-- An operation on the records of a store. -/
inductive Operation
  | browse (kind : Kind)
  | read (kind : Kind) (key : Key)
  /-- Look for the handle of a key. -/
  | lookUp (kind : Kind) (key : Key)
  | add (r : Record)
  | write (h : Handle) (r : Record)
  | delete (kind : Kind) (key : Key)
  | count (kind : Kind)

/-- What an operation answers. -/
inductive Reply
  | records (list : List Record)
  | record (found : Option Record)
  | handle (found : Option Handle)
  | version (version : Version)
  | removed (existed : Bool)
  | number (n : Nat)
  deriving DecidableEq

namespace Operation

/-- What the store does. -/
def program : Operation → Program StoreError Reply
  | browse kind => Records.browse kind >>= fun list => pure (.records list)
  | read kind key => Records.read kind key >>= fun found => pure (.record found)
  | lookUp kind key => Records.handle? kind key >>= fun found => pure (.handle found)
  | add r => Records.add r >>= fun v => pure (.version v)
  | write h r => Records.write h r >>= fun v => pure (.version v)
  | delete kind key => Records.delete kind key >>= fun existed => pure (.removed existed)
  | count kind => Records.count kind >>= fun n => pure (.number n)

/-- What comes of it on a database, when nothing is in the way. -/
def effect (op : Operation) (db : Database) : Outcome StoreError Reply :=
  op.program.run.effect .free db

theorem plain_program (op : Operation) : op.program.Plain := by
  cases op with
  | browse kind =>
      exact Program.plain_bind (Records.plain_browse kind) fun _ => Program.plain_pure _
  | read kind key =>
      exact Program.plain_bind (Records.plain_read kind key) fun _ => Program.plain_pure _
  | lookUp kind key =>
      exact Program.plain_bind (Records.plain_handle? kind key) fun _ => Program.plain_pure _
  | add r => exact Program.plain_bind (Records.plain_add r) fun _ => Program.plain_pure _
  | write h r => exact Program.plain_bind (Records.plain_write h r) fun _ => Program.plain_pure _
  | delete kind key =>
      exact Program.plain_bind (Records.plain_delete kind key) fun _ => Program.plain_pure _
  | count kind =>
      refine Program.plain_bind ?_ fun _ => Program.plain_pure _
      exact Program.plain_bind (Records.plain_statement (Action.plain_table kind))
        fun _ => Program.plain_pure _

/-- The answers to operations done one after another. -/
def replies : List Operation → Database → List (Except StoreError Reply)
  | [], _ => []
  | op :: rest, db => (op.effect db).result :: replies rest (op.effect db).database

end Operation

/-! ### The reference -/

/-- A record with its version. -/
structure Versioned where
  version : Int
  content : Record
  deriving DecidableEq

namespace Versioned

/-- The record as it is answered. -/
def stamped (e : Versioned) : Record := e.content.withVersion (some ⟨e.version⟩)

/-- The record is this one, of any version. -/
def isAt (e : Versioned) (kind : Kind) (key : Key) : Bool :=
  e.content.kind = kind && e.content.key = key

/-- The octets of the record's key come before those of the other's, or are the same. -/
def notAfter (e f : Versioned) : Bool :=
  (compare e.content.key.octets f.content.key.octets).isLE

end Versioned

/-- Records with their versions, no two of one kind and key. -/
abbrev Ledger := List Versioned

namespace Ledger

/-- The record of a kind and key. -/
def at? (m : Ledger) (kind : Kind) (key : Key) : Option Versioned := m.find? (·.isAt kind key)

/-- The records but for one. -/
def without (m : Ledger) (kind : Kind) (key : Key) : Ledger := m.filter (!·.isAt kind key)

/-- The records of a kind. -/
def ofKind (m : Ledger) (kind : Kind) : Ledger := m.filter (·.content.kind = kind)

/-- The answer to an operation, and what it makes of the records. -/
def step (m : Ledger) : Operation → Except StoreError Reply × Ledger
  | .browse kind =>
      (.ok (.records (((m.ofKind kind).mergeSort Versioned.notAfter).map Versioned.stamped)), m)
  | .read kind key => (.ok (.record ((m.at? kind key).map Versioned.stamped)), m)
  | .lookUp kind key => (.ok (.handle ((m.at? kind key).map fun e => ⟨key, ⟨e.version⟩⟩)), m)
  | .add r =>
      match r.blankIdentity?, m.at? r.kind r.key with
      | some field, _ => (.error (.invalid field), m)
      | none, some _ => (.error (.duplicateKey r.kind r.key), m)
      | none, none => (.ok (.version ⟨1⟩), ⟨1, r.withVersion none⟩ :: m)
  | .write h r =>
      match r.blankIdentity? with
      | some field => (.error (.invalid field), m)
      | none =>
          if r.key ≠ h.key then (.error (.keyMismatch r.kind h.key r.key), m)
          else if (m.at? r.kind r.key).map (·.version) = some h.version.number then
            (.ok (.version ⟨h.version.number + 1⟩),
              ⟨h.version.number + 1, r.withVersion none⟩ :: m.without r.kind r.key)
          else (.error (.concurrentModification r.kind r.key), m)
  | .delete kind key => (.ok (.removed (m.at? kind key).isSome), m.without kind key)
  | .count kind => (.ok (.number (m.ofKind kind).length), m)

/-- The answers to operations done one after another. -/
def replies : List Operation → Ledger → List (Except StoreError Reply)
  | [], _ => []
  | op :: rest, m => (m.step op).1 :: replies rest (m.step op).2

/-! ### Looking up -/

variable {m : Ledger} {kind other : Kind} {key k : Key} {e : Versioned}

theorem at?_cons (e : Versioned) (m : Ledger) (kind : Kind) (key : Key) :
    at? (e :: m) kind key = if e.isAt kind key then some e else m.at? kind key := by
  rw [at?, List.find?_cons]
  cases e.isAt kind key <;> rfl

theorem at?_without (m : Ledger) (kind other : Kind) (key k : Key) :
    (m.without kind key).at? other k = if other = kind ∧ k = key then none else m.at? other k := by
  induction m with
  | nil => simp [without, at?]
  | cons e rest ih =>
      rw [without, List.filter_cons]
      cases he : e.isAt kind key with
      | true =>
          rw [at?_cons]
          simp only [Bool.not_true, Bool.false_eq_true, if_false]
          rw [show rest.filter (!·.isAt kind key) = Ledger.without rest kind key from rfl, ih]
          split
          · rfl
          · rename_i hne
            rw [if_neg]
            intro hother
            simp only [Versioned.isAt, Bool.and_eq_true, decide_eq_true_eq] at he hother
            exact hne ⟨hother.1.symm.trans he.1, hother.2.symm.trans he.2⟩
      | false =>
          simp only [Bool.not_false, if_true]
          rw [at?_cons, at?_cons,
            show rest.filter (!·.isAt kind key) = Ledger.without rest kind key from rfl, ih]
          split
          · rename_i hother
            rw [if_neg]
            rintro ⟨rfl, rfl⟩
            rw [he] at hother
            cases hother
          · rfl

theorem mem_of_at? (h : m.at? kind key = some e) :
    e ∈ m ∧ e.content.kind = kind ∧ e.content.key = key := by
  have hfind : m.find? (·.isAt kind key) = some e := h
  have hat := List.find?_some hfind
  simp only [Versioned.isAt, Bool.and_eq_true, decide_eq_true_eq] at hat
  exact ⟨List.mem_of_find?_eq_some hfind, hat⟩

/-- The records of a kind, in the order in which they are listed. -/
def listed (m : Ledger) (kind : Kind) : List Versioned :=
  (m.ofKind kind).mergeSort Versioned.notAfter

theorem mem_listed : e ∈ m.listed kind ↔ e ∈ m ∧ e.content.kind = kind := by
  rw [listed, (List.mergeSort_perm _ _).mem_iff, ofKind, List.mem_filter, decide_eq_true_eq]

theorem length_listed (m : Ledger) (kind : Kind) : (m.listed kind).length = (m.ofKind kind).length :=
  (List.mergeSort_perm _ _).length_eq

/-- They are listed in the order of their keys. -/
theorem listed_pairwise (m : Ledger) (kind : Kind) :
    (m.listed kind).Pairwise fun e f => (compare e.content.key f.content.key).isLE := by
  have htrans (e f g : Versioned) (hef : e.notAfter f) (hfg : f.notAfter g) : e.notAfter g :=
    Std.TransCmp.isLE_trans hef hfg
  have htotal (e f : Versioned) : e.notAfter f || f.notAfter e := by
    rw [Versioned.notAfter, Versioned.notAfter, Std.OrientedOrd.eq_swap (a := f.content.key.octets)]
    cases compare e.content.key.octets f.content.key.octets <;> rfl
  have hsorted : (m.listed kind).Pairwise fun e f => e.notAfter f :=
    List.pairwise_mergeSort htrans htotal (m.ofKind kind)
  refine hsorted.imp ?_
  intro e f hle
  rwa [Versioned.notAfter, Key.compare_octets] at hle

end Ledger

/-! ### Representing a ledger -/

/-- The row of an entry. -/
def Versioned.row (e : Versioned) : Row := ⟨e.version, Records.payload e.content⟩

/-- The rows of the database are those of the entries. -/
structure Represents (m : Ledger) (db : Database) : Prop where
  migrated : db.IsMigrated
  rows : ∀ kind key, db.row? kind key = (m.at? kind key).map Versioned.row
  positive : ∀ e ∈ m, 1 ≤ e.version
  distinct : m.Pairwise fun e f => ¬ f.isAt e.content.kind e.content.key

namespace Represents

variable {m : Ledger} {db : Database} {kind : Kind} {key : Key} {r : Record} {e : Versioned}

theorem empty : Represents [] .migrated := by
  refine ⟨Database.isMigrated_migrated, ?_, by simp, by simp⟩
  intro kind key
  cases kind <;> rfl

/-- A row of an entry is read as the entry. -/
theorem ofRow (hv : 1 ≤ e.version) (he : e.content.kind = kind) :
    Records.ofRow kind e.row = .ok e.stamped := by
  rw [← he, Records.ofRow, Versioned.row, Record.ofText_payload]
  simp only [if_neg (show ¬ e.version < 1 by omega), Record.withVersion_withVersion]
  rfl

theorem put {v : Int} (h : Represents m db) (hnamed : r.blankIdentity? = none) (hv : 1 ≤ v) :
    Represents (⟨v, r.withVersion none⟩ :: m.without r.kind r.key)
      (db.put r.kind r.key ⟨v, Records.payload r⟩) := by
  have hedited : Edited (fun _ _ => True) db (db.put r.kind r.key ⟨v, Records.payload r⟩) :=
    Edited.same.put trivial hnamed hv
  obtain ⟨t, ht⟩ := Option.isSome_iff_exists.mp (h.migrated.tables r.kind)
  refine ⟨h.migrated.of_edited hedited, ?_, ?_, ?_⟩
  · intro kind key
    rw [Database.row?_put ht, Ledger.at?_cons, Ledger.at?_without, h.rows]
    have hat : Versioned.isAt ⟨v, r.withVersion none⟩ kind key = decide (kind = r.kind ∧ key = r.key) := by
      simp [Versioned.isAt, eq_comm]
    by_cases hsame : kind = r.kind ∧ key = r.key
    · rw [if_pos hsame, hat, if_pos (by simpa using hsame)]
      simp [Versioned.row, Records.payload]
    · rw [if_neg hsame, hat, if_neg (by simpa using hsame), if_neg hsame]
  · intro e he
    rcases List.mem_cons.mp he with rfl | he
    · exact hv
    · exact h.positive e (List.mem_of_mem_filter he)
  · refine List.pairwise_cons.mpr ⟨?_, h.distinct.filter _⟩
    intro e he hat
    rw [Record.kind_withVersion, Record.key_withVersion] at hat
    have hnot := List.of_mem_filter he
    rw [hat] at hnot
    cases hnot

theorem drop (h : Represents m db) (kind : Kind) (key : Key) :
    Represents (m.without kind key) (db.drop kind key) := by
  have hedited : Edited (fun _ _ => True) db (db.drop kind key) := Edited.same.drop trivial
  obtain ⟨t, ht⟩ := Option.isSome_iff_exists.mp (h.migrated.tables kind)
  refine ⟨h.migrated.of_edited hedited, ?_, ?_, h.distinct.filter _⟩
  · intro other k
    rw [Database.row?_drop ht, Ledger.at?_without, h.rows]
    split <;> rfl
  · exact fun e he => h.positive e (List.mem_of_mem_filter he)

/-- Taking out what is not there changes nothing. -/
theorem without_eq (hnone : m.at? kind key = none) : m.without kind key = m := by
  apply List.filter_eq_self.mpr
  intro e he
  have hnot := List.find?_eq_none.mp hnone e he
  simpa using hnot

/-- **The rows of a kind are listed in the order of the octets of their keys.** -/
theorem entries_eq (h : Represents m db) (kind : Kind) :
    (db.rows kind).entries = (m.listed kind).map fun e => (e.content.key, e.row) := by
  obtain ⟨t, ht⟩ := Option.isSome_iff_exists.mp (h.migrated.tables kind)
  rw [Database.rows, ht, Option.getD_some]
  have hdistinct : (m.listed kind).Pairwise fun e f => e.content.key ≠ f.content.key := by
    have hofKind : (m.ofKind kind).Pairwise fun e f => e.content.key ≠ f.content.key := by
      refine (h.distinct.filter _).imp_of_mem fun he hf hnot hkey => hnot ?_
      have hkinds := And.intro (List.of_mem_filter he) (List.of_mem_filter hf)
      simp only [decide_eq_true_eq] at hkinds
      simp [Versioned.isAt, hkinds, hkey]
    exact ((List.mergeSort_perm _ _).pairwise_iff fun hne => hne.symm).mpr hofKind
  have hascending : Ascending ((m.listed kind).map fun e => (e.content.key, e.row)) := by
    refine List.pairwise_map.mpr (((m.listed_pairwise kind).and hdistinct).imp ?_)
    rintro e f ⟨hle, hne⟩
    cases hcompare : compare e.content.key f.content.key with
    | lt => rfl
    | eq => exact absurd (Std.LawfulEqOrd.eq_of_compare hcompare) hne
    | gt =>
        rw [hcompare] at hle
        cases hle
  -- Both lists are ascending, so it is enough that looking up finds the same in them.
  refine SortedMap.entries_eq_of_lookup t.ascending hascending ?_
  intro k
  have hrow : SortedMap.lookup k t.entries = (m.at? kind k).map Versioned.row := by
    rw [← h.rows kind k, Database.row?_eq ht]
    rfl
  rw [hrow]
  cases hat : m.at? kind k with
  | some e =>
      obtain ⟨hmem, hkind, hkey⟩ := Ledger.mem_of_at? hat
      have hlisted : (k, e.row) ∈ (m.listed kind).map fun e => (e.content.key, e.row) :=
        List.mem_map.mpr ⟨e, Ledger.mem_listed.mpr ⟨hmem, hkind⟩, by rw [hkey]⟩
      exact (SortedMap.lookup_isSome_of_mem hlisted hascending).symm
  | none =>
      cases hlookup : SortedMap.lookup k ((m.listed kind).map fun e => (e.content.key, e.row)) with
      | none => rfl
      | some row =>
          obtain ⟨e, he, hentry⟩ := List.mem_map.mp (SortedMap.mem_of_lookup hlookup)
          obtain ⟨hmem, hkind⟩ := Ledger.mem_listed.mp he
          have hnot := List.find?_eq_none.mp hat e hmem
          have hkey : e.content.key = k := congrArg Prod.fst hentry
          simp [Versioned.isAt, hkind, hkey] at hnot

/-- **An operation answers as the reference does, and leaves the database representing what the
reference leaves.** -/
theorem step (h : Represents m db) (op : Operation) :
    (op.effect db).result = (m.step op).1 ∧ Represents (m.step op).2 (op.effect db).database := by
  have hread := h.migrated.readFault?_free
  have hwrite := h.migrated.writeFault?_free
  rw [Operation.effect, op.plain_program.effect_run]
  cases op with
  | browse kind =>
      have hlist : ((db.rows kind).entries.mapM fun entry => Records.ofRow kind entry.2)
          = .ok ((m.listed kind).map Versioned.stamped) := by
        rw [h.entries_eq kind, List.mapM_map]
        apply mapM_ok
        intro e he
        obtain ⟨hmem, hkind⟩ := Ledger.mem_listed.mp he
        exact ofRow (h.positive e hmem) hkind
      rw [Operation.program, Program.effect_bind, Records.effect_browse, hread, hlist]
      exact ⟨rfl, h⟩
  | read kind key =>
      have hfound : Records.inRow kind key (db.row? kind key)
          = .ok ((m.at? kind key).map Versioned.stamped) := by
        rw [h.rows]
        cases hat : m.at? kind key with
        | none => rfl
        | some e =>
            obtain ⟨hmem, hkind, hkey⟩ := Ledger.mem_of_at? hat
            have hstamped : e.stamped.key = key := by
              rw [Versioned.stamped, Record.key_withVersion, hkey]
            simp only [Option.map_some, Records.inRow, ofRow (h.positive e hmem) hkind, if_pos hstamped]
      rw [Operation.program, Program.effect_bind, Records.effect_read, hread, hfound]
      exact ⟨rfl, h⟩
  | lookUp kind key =>
      have hfound : (db.row? kind key).map (fun row => (⟨key, ⟨row.version⟩⟩ : Handle))
          = (m.at? kind key).map fun e => ⟨key, ⟨e.version⟩⟩ := by
        rw [h.rows, Option.map_map]
        rfl
      rw [Operation.program, Program.effect_bind, Records.effect_handle?, hread, hfound]
      exact ⟨rfl, h⟩
  | add r =>
      rw [Operation.program, Program.effect_bind, Records.effect_add, hwrite, h.rows, Ledger.step]
      cases hnamed : r.blankIdentity? with
      | some field => exact ⟨rfl, h⟩
      | none =>
          cases hat : m.at? r.kind r.key with
          | some e => exact ⟨rfl, h⟩
          | none =>
              have hput := h.put hnamed (show (1 : Int) ≤ Version.initial.number by decide)
              rw [without_eq hat] at hput
              exact ⟨rfl, hput⟩
  | write handle r =>
      have hversion : (db.row? r.kind r.key).any (·.version = handle.version.number)
          ↔ (m.at? r.kind r.key).map (·.version) = some handle.version.number := by
        rw [h.rows]
        cases m.at? r.kind r.key <;> simp [Versioned.row]
      rw [Operation.program, Program.effect_bind, Records.effect_write, hwrite, Ledger.step]
      cases hnamed : r.blankIdentity? with
      | some field => exact ⟨rfl, h⟩
      | none =>
          by_cases hkey : r.key ≠ handle.key
          · simp only [if_pos hkey]
            exact ⟨rfl, h⟩
          · simp only [if_neg hkey]
            by_cases hat : (m.at? r.kind r.key).map (·.version) = some handle.version.number
            · -- The version is that of an entry, so the next one is positive.
              have hpos : 1 ≤ handle.version.number := by
                obtain ⟨e, he, hv⟩ := Option.map_eq_some_iff.mp hat
                rw [← hv]
                exact h.positive e (Ledger.mem_of_at? he).1
              have hput := h.put hnamed (show 1 ≤ handle.version.number + 1 by omega)
              simp only [if_pos (hversion.mpr hat), if_pos hat,
                if_neg (show ¬ handle.version.number + 1 ≤ 0 by omega)]
              exact ⟨rfl, hput⟩
            · simp only [if_neg (mt hversion.mp hat), if_neg hat]
              exact ⟨rfl, h⟩
  | delete kind key =>
      rw [Operation.program, Program.effect_bind, Records.effect_delete, hread, hwrite, h.rows,
        Option.isSome_map, Ledger.step]
      cases hat : m.at? kind key with
      | none =>
          rw [without_eq hat]
          exact ⟨rfl, h⟩
      | some e => exact ⟨rfl, h.drop kind key⟩
  | count kind =>
      have hlength : (db.rows kind).entries.length = (m.ofKind kind).length := by
        rw [h.entries_eq kind, List.length_map, Ledger.length_listed]
      rw [Operation.program, Program.effect_bind, Records.count, Program.effect_bind,
        Records.effect_statement, Action.effect_table, hread]
      simp only [Outcome.mapError_ok, Outcome.andThen_ok, Program.effect_pure, hlength]
      exact ⟨rfl, h⟩

end Represents

/-- **The store refines a versioned map.**  Whatever is done to a fresh database, every answer is that
of the reference. -/
theorem Operation.replies_eq (ops : List Operation) :
    Operation.replies ops .migrated = Ledger.replies ops [] := by
  have hruns (m : Ledger) (db : Database) (h : Represents m db) :
      Operation.replies ops db = Ledger.replies ops m := by
    induction ops generalizing m db with
    | nil => rfl
    | cons op rest ih =>
        obtain ⟨hresult, hnext⟩ := h.step op
        rw [Operation.replies, Ledger.replies, hresult, ih _ _ hnext]
  exact hruns [] .migrated .empty

end AccessStore
