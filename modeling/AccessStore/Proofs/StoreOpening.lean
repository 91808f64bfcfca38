/-
Opening the store that settings describe.

Which settings are accepted is known exactly, `accepted_iff`: those that make sense, with any wait that
64 bits can count but none.  The storage counts the wait in 31 bits, and nothing stands between the
two.  So a store in a file whose settings ask for a longer wait is not opened and not refused either:
the storage panics, once the connection has been made, and the opening comes to no answer.  Otherwise
it always comes to one, whatever the files hold that the settings name.
-/
import Mathlib.Data.List.TakeWhile
import AccessStore.Proofs.FailedCalls
import AccessStore.Proofs.Settings
import AccessStore.Service

namespace AccessStore

open Json

/-! ### Settings that are accepted -/

namespace Config

variable {c : Config}

/-- The settings make sense, and the wait can be written. -/
structure IsAcceptable (c : Config) : Prop where
  positive : 1 ≤ c.busyTimeoutMs
  counted : c.busyTimeoutMs < 2 ^ 64
  directory : c.logLevel.isSome → c.logDir.isSome

theorem invalid?_eq_none_iff :
    c.invalid? = none ↔ 1 ≤ c.busyTimeoutMs ∧ (c.logLevel.isSome → c.logDir.isSome) := by
  unfold invalid?
  by_cases hzero : c.busyTimeoutMs = 0
  · simp [hzero]
  · have hpositive : 1 ≤ c.busyTimeoutMs := Nat.one_le_iff_ne_zero.mpr hzero
    rw [if_neg hzero]
    cases c.logLevel <;> cases c.logDir <;> simp [hpositive]

theorem unsigned64_lt {node : Node} {n : Nat} (hok : Decoder.unsigned64 node = .ok n) : n < 2 ^ 64 := by
  unfold Decoder.unsigned64 at hok
  split at hok
  · split at hok
    · rename_i m hm
      obtain rfl : m = n := Except.ok.inj hok
      unfold Numeral.unsigned64? at hm
      split at hm
      · rename_i hfits
        simp only [Bool.and_eq_true, decide_eq_true_eq] at hfits
        rw [← Option.some.inj hm]
        exact hfits.2
      · cases hm
    · cases hok
  · cases hok

/-- The wait is read from 64 bits or is the one by default. -/
theorem counted_of_decode {node : Node} (hok : schema.decode node = .ok c) :
    c.busyTimeoutMs < 2 ^ 64 := by
  have hkeeps : Schema.Keeps (fun c : Config => c.busyTimeoutMs < 2 ^ 64) schema.fields := by
    intro field hfield node update c hread hc
    simp only [schema, List.mem_cons, List.not_mem_nil, or_false] at hfield
    rcases hfield with rfl | rfl | rfl | rfl | rfl <;> obtain ⟨v, hv, rfl⟩ := map_eq_ok.mp hread
    · exact hc
    · exact unsigned64_lt hv
    · exact hc
    · exact hc
    · exact hc
  exact hkeeps.of_decode (by decide) hok

/-- A number is read back from its digits. -/
theorem unsigned64_node {n : Nat} (h : n < 2 ^ 64) :
    Decoder.unsigned64 (Value.number n).node = .ok n := by
  have hdigits : (Nat.toDigits 10 n).all Char.isDigit = true :=
    List.all_eq_true.mpr fun c hc => Text.isDigit_of_mem_toDigits hc
  have hsign : (Nat.toDigits 10 n).head? ≠ some '-' := by
    intro hhead
    have hdigit := Text.isDigit_of_mem_toDigits (List.mem_of_mem_head? hhead)
    cases hdigit
  have hwhole : (Nat.toDigits 10 n).takeWhile Char.isDigit = Nat.toDigits 10 n :=
    List.takeWhile_eq_self_iff.mpr (by simpa using hdigits)
  have hrest : (Nat.toDigits 10 n).dropWhile Char.isDigit = [] :=
    List.dropWhile_eq_nil_iff.mpr (by simpa using hdigits)
  have hnumeral : Numeral.ofSpelling (Nat.toDigits 10 n) = ⟨false, Nat.toDigits 10 n, [], none⟩ := by
    simp [Numeral.ofSpelling, hsign, hwhole, hrest]
  have hread : (Numeral.ofSpelling (Nat.toDigits 10 n)).unsigned64? = some n := by
    rw [hnumeral, Numeral.unsigned64?, Text.digitsValue_toDigits]
    simpa using h
  show Decoder.unsigned64 (.number (Nat.toDigits 10 n)) = .ok n
  rw [Decoder.unsigned64, hread]

theorem location_node (loc : Location) : Location.decode 1 loc.value.node = .ok loc := by
  rw [Location.node_value]
  exact Location.decode_perm (.refl _)

theorem optional_node (text? : Option String) :
    Decoder.optional Decoder.text (Value.textOrNull text?).node = .ok text? := by
  cases text? <;> rfl

/-- Settings are read back from their document. -/
theorem decode_node (h : c.busyTimeoutMs < 2 ^ 64) : schema.decode c.value.node = .ok c := by
  obtain ⟨database, busyTimeoutMs, logLevel, logDir, defaultsPath⟩ := c
  rw [value, Schema.decode_node]
  simp [schema, Schema.member, Schema.field?, Schema.missed?, Field.may, Decoder.name, bind,
    Except.bind, pure, Except.pure, Except.map, location_node, unsigned64_node h, optional_node]

end Config

/-- **Which settings are accepted.** -/
theorem Setup.accepted_iff {c : Config} : (∃ s, configOfText s = .ok c) ↔ c.IsAcceptable := by
  constructor
  · rintro ⟨s, haccepted⟩
    obtain ⟨hdecode, hvalid⟩ := decode_of_configOfText haccepted
    obtain ⟨hpositive, hdirectory⟩ := Config.invalid?_eq_none_iff.mp hvalid
    exact ⟨hpositive, Config.counted_of_decode hdecode, hdirectory⟩
  · intro h
    have hvalid := Config.invalid?_eq_none_iff.mpr ⟨h.positive, h.directory⟩
    refine ⟨c.value.render, ?_⟩
    rw [configOfText, Decoder.run, Document.ofText_render]
    simp [Config.decode_node h.counted, hvalid, bind, Except.bind, pure, Except.pure, Except.mapError]

/-! ### Opening -/

namespace Opening

variable {disk : Disk} {path : String} {wait : Nat}

/-- The opening of a file panics exactly if the connection is made and the wait cannot be counted. -/
theorem file_panicked_iff : (file disk path wait).result = .error .panicked ↔
    longestWait < wait ∧ ∃ linked, disk.connect path = .ok linked := by
  unfold file
  cases hconnect : disk.connect path with
  | error fault => simp
  | ok linked =>
      obtain ⟨link, disk'⟩ := linked
      by_cases hwait : longestWait < wait
      · simp [hwait]
      · rcases hprepare : prepare disk' link with ⟨_ | _, _⟩ <;> simp [hwait, hprepare]

/-- It leaves what every database holds, though there may be a file now that was not there. -/
theorem contentAt_of_panicked (h : (file disk path wait).result = .error .panicked) (p : Place) :
    (file disk path wait).disk.contentAt p = disk.contentAt p := by
  obtain ⟨hwait, ⟨link, disk'⟩, hconnect⟩ := file_panicked_iff.mp h
  have hdisk : (file disk path wait).disk = disk'.close link := by
    simp [file, hconnect, hwait]
  rw [hdisk, Disk.contentAt_close, Disk.contentAt_connect hconnect]

end Opening

/-! ### The result -/

/-- The store over a location, with these defaults. -/
def Location.store : Location → Defaults → Service
  | memory, defaults => .inMemory defaults
  | file path, defaults => .inFile path defaults

/-- The store is to be in a file to which a connection is made, with a longer wait than can be counted. -/
def Config.PanicsOn (c : Config) (disk : Disk) : Prop :=
  ∃ path linked, c.database = .file path ∧ Opening.longestWait < c.busyTimeoutMs ∧
    disk.connect path = .ok linked

namespace Setup

variable {c : Config} {disk : Disk} {path : String}

/-- A store over a location that could be opened, if there are defaults for it. -/
def withDefaults (location : Location) (defaults : Except DefaultsError Defaults) :
    Except (Stop SetupError) Service :=
  match defaults with
  | .ok d => .ok (location.store d)
  | .error e => .error (.failed (.defaults e))

theorem withDefaults_ne_panicked (location : Location) (defaults : Except DefaultsError Defaults) :
    withDefaults location defaults ≠ .error .panicked := by
  intro h
  cases defaults <;> cases h

theorem openStore_memory (h : c.database = .memory) :
    openStore disk c = ⟨withDefaults c.database (defaultsOf disk c), disk, [Opening.success "memory"]⟩ := by
  rw [openStore, h, service]
  cases defaultsOf disk c <;> rfl

theorem openStore_file (h : c.database = .file path) :
    openStore disk c
      = ⟨match (Opening.file disk path c.busyTimeoutMs).result with
          | .error stop => .error (stop.map .database)
          | .ok () =>
              withDefaults c.database (defaultsOf (Opening.file disk path c.busyTimeoutMs).disk c),
        (Opening.file disk path c.busyTimeoutMs).disk,
        (Opening.file disk path c.busyTimeoutMs).events⟩ := by
  rw [openStore, h, service]
  rcases Opening.file disk path c.busyTimeoutMs with ⟨_ | _, disk', _⟩
  · rfl
  · cases defaultsOf disk' c <;> rfl

theorem panicsOn_file (h : c.database = .file path) :
    c.PanicsOn disk ↔ (Opening.file disk path c.busyTimeoutMs).result = .error .panicked := by
  rw [Opening.file_panicked_iff]
  constructor
  · rintro ⟨path', linked, hpath, hwait, hconnect⟩
    obtain rfl : path = path' := Location.file.inj (h.symm.trans hpath)
    exact ⟨hwait, linked, hconnect⟩
  · rintro ⟨hwait, linked, hconnect⟩
    exact ⟨path, linked, h, hwait, hconnect⟩

theorem openStore_panicked_iff : (openStore disk c).result = .error .panicked ↔ c.PanicsOn disk := by
  cases hdatabase : c.database with
  | memory =>
      rw [openStore_memory hdatabase]
      refine ⟨fun h => absurd h (withDefaults_ne_panicked _ _), ?_⟩
      rintro ⟨path, linked, hpath, -⟩
      rw [hdatabase] at hpath
      cases hpath
  | file path =>
      rw [openStore_file hdatabase, panicsOn_file hdatabase]
      cases (Opening.file disk path c.busyTimeoutMs).result with
      | error stop => cases stop <;> simp [Stop.map]
      | ok _ => simp [withDefaults_ne_panicked]

/-- What was made with defaults is a store or tells why there are none. -/
theorem withDefaults_cases (location : Location) (defaults : Except DefaultsError Defaults) :
    (∃ d, defaults = .ok d ∧ withDefaults location defaults = .ok (location.store d)) ∨
      ∃ e, withDefaults location defaults = .error (.failed e) := by
  cases defaults with
  | ok d => exact .inl ⟨d, rfl, rfl⟩
  | error e => exact .inr ⟨_, rfl⟩

/-- An opening that comes to an answer has opened the store with the defaults, or tells what failed. -/
theorem openStore_answers (h : ¬ c.PanicsOn disk) :
    (∃ d, defaultsOf (openStore disk c).disk c = .ok d ∧
        (openStore disk c).result = .ok (c.database.store d)) ∨
      ∃ e, (openStore disk c).result = .error (.failed e) := by
  cases hdatabase : c.database with
  | memory =>
      rw [openStore_memory hdatabase, hdatabase]
      exact withDefaults_cases _ _
  | file path =>
      rw [panicsOn_file hdatabase] at h
      rw [openStore_file hdatabase, hdatabase]
      cases hopened : (Opening.file disk path c.busyTimeoutMs).result with
      | ok _ => exact withDefaults_cases _ _
      | error stop =>
          rw [hopened] at h
          cases stop with
          | failed e => exact .inr ⟨.database e, rfl⟩
          | panicked => exact absurd rfl h

theorem contentAt_of_panicsOn (h : c.PanicsOn disk) (p : Place) :
    (openStore disk c).disk.contentAt p = disk.contentAt p := by
  obtain ⟨path, -, hdatabase, -⟩ := id h
  rw [openStore_file hdatabase]
  exact Opening.contentAt_of_panicked ((panicsOn_file hdatabase).mp h) p

/-- **When settings that are accepted keep the opener from an answer.**  Settings are accepted if they
make sense and 64 bits can count the wait.  The opening of the store panics exactly if it is in a file to
which a connection is made and the wait is longer than 31 bits can count, and then no database has
changed.  Otherwise there is a store with the defaults that the settings ask for, or the failure is told,
whatever the files hold. -/
theorem openStore_of_accepted (c : Config) (disk : Disk) :
    ((∃ s, configOfText s = .ok c) ↔ c.IsAcceptable) ∧
      ((openStore disk c).result = .error .panicked ↔ c.PanicsOn disk) ∧
      (c.PanicsOn disk → ∀ p, (openStore disk c).disk.contentAt p = disk.contentAt p) ∧
      (¬ c.PanicsOn disk →
        (∃ d, defaultsOf (openStore disk c).disk c = .ok d ∧
            (openStore disk c).result = .ok (c.database.store d)) ∨
          ∃ e, (openStore disk c).result = .error (.failed e)) :=
  ⟨accepted_iff, openStore_panicked_iff, contentAt_of_panicsOn, openStore_answers⟩

/-- Settings that ask for a store in a file, with the shortest wait that 31 bits cannot count. -/
def longWait : Config := { database := .file "a.db", busyTimeoutMs := 1 <<< 31 }

/-- So it is not so that the opener always comes to an answer. -/
theorem long_wait_panics : ¬ ∀ s c disk, configOfText s = .ok c →
    (openStore disk c).result ≠ .error .panicked := by
  intro hanswers
  have hacceptable : longWait.IsAcceptable := ⟨by decide, by decide, by decide⟩
  obtain ⟨s, haccepted⟩ := accepted_iff.mpr hacceptable
  have hpanics : longWait.PanicsOn { entries := .empty } := ⟨"a.db", _, rfl, by decide, rfl⟩
  exact hanswers s longWait { entries := .empty } haccepted (openStore_panicked_iff.mpr hpanics)

end Setup

end AccessStore
