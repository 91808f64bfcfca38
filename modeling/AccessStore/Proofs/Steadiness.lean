/-
Stores that connect alike each time.

What a call answers depends on the terms on which its connection works, so two orders of calls
can only be compared for a store whose calls all work on the same ones.  A store in memory is
like that.  For a store in a file it takes an argument, since its own connections change what
lies about the file: the file is opened and closed, written to, and the log and its memory beside
it come and go.

What of all this a connection looks at is said by `Disk.Alike`.  It finds the same locks and the
same directories, and the memory that it would have to borrow.  Every step of a connection keeps
these, so a store that connects again does so on the terms it had before: `connects_again`.

Whether it connects again is another question, for an address can be made so that it does not.
It may name its own log as the file to resemble, which is gone once the file was closed, or lead
past the log.  No other address does that: `reconnects_of_straight`.
-/
import AccessStore.Proofs.Footprints
import AccessStore.Proofs.WellFormed

namespace AccessStore

/-! ### The way to a file -/

/-- The entry is a directory. -/
def Entry.isDirectory : Entry → Bool
  | .directory => true
  | _ => false

namespace Disk

variable {disk disk' : Disk} {place p : Place}

/-- Whether a directory stands at a place or a file; none if there is nothing. -/
def shape? (disk : Disk) (p : Place) : Option Bool := (disk.entry? p).map Entry.isDirectory

theorem isDirectory_eq (disk : Disk) (p : Place) : disk.isDirectory p = (disk.shape? p).getD false := by
  unfold isDirectory shape?
  cases disk.entry? p with
  | none => rfl
  | some entry => cases entry <;> rfl

theorem isSome_shape? (disk : Disk) (p : Place) : (disk.shape? p).isSome = (disk.entry? p).isSome := by
  rw [shape?, Option.isSome_map]

/-- Walking depends on nothing but the shapes on the way. -/
theorem walk_congr {names : List EntryName}
    (h : ∀ p ∈ names.scanl follow place, disk'.shape? p = disk.shape? p) :
    disk'.walk place names = disk.walk place names := by
  induction names generalizing place with
  | nil => rfl
  | cons name rest ih =>
      rw [List.scanl_cons] at h
      have hhere := h place List.mem_cons_self
      have hrest := ih fun p hp => h p (List.mem_cons_of_mem _ hp)
      unfold shape? at hhere
      rw [walk, walk, hrest]
      rcases he : disk.entry? place with _ | entry <;> rcases he' : disk'.entry? place with _ | entry'
      · rfl
      · simp [he, he'] at hhere
      · simp [he, he'] at hhere
      · cases entry <;> cases entry' <;> simp_all [Entry.isDirectory]

/-- The way of a path comes past this place. -/
def Passes (disk : Disk) (path : Path) (p : Place) : Prop :=
  ∃ q ∈ (parts path).scanl follow (disk.start path), p ∈ q.scanl follow []

/-- Finding the place of a database depends on nothing but the shapes on the way. -/
theorem site?_congr {path : Path} (hcurrent : disk'.current = disk.current)
    (h : ∀ p, disk.Passes path p → disk'.shape? p = disk.shape? p) :
    disk'.site? path = disk.site? path := by
  have hadmits {q : Place} (hq : ∀ p ∈ q.scanl follow [], disk'.shape? p = disk.shape? p) :
      disk'.admits q = disk.admits q := by
    rw [admits, admits, walk_congr hq]
  have hsimplify (names : List EntryName) (place : Place)
      (hway : ∀ q ∈ names.scanl follow place, ∀ p ∈ q.scanl follow [], disk'.shape? p = disk.shape? p) :
      disk'.simplify place names = disk.simplify place names := by
    induction names generalizing place with
    | nil => rfl
    | cons name rest ih =>
        rw [List.scanl_cons] at hway
        have hnext : follow place name ∈ rest.scanl follow (follow place name) := by
          cases rest <;> simp [List.scanl_cons]
        have hplace := hadmits (hway _ (List.mem_cons_of_mem _ hnext))
        simp only [simplify, hplace, ih _ fun q hq => hway q (List.mem_cons_of_mem _ hq)]
  have hstart : disk'.start path = disk.start path := by
    rw [start, start, hcurrent]
  rw [site?, site?, hstart, hsimplify (parts path) (disk.start path)]
  intro q hq p hp
  exact h p ⟨q, hq, hp⟩

/-- A path that can be simplified leads to where its names say. -/
theorem simplify_eq_some {names : List EntryName} (h : disk.simplify place names = some p) :
    p = names.foldl follow place := by
  induction names generalizing place with
  | nil => exact (Option.some.inj h).symm
  | cons name rest ih =>
      rw [simplify] at h
      split at h
      · exact ih h
      · cases h

/-- Wherever the place of a database is found, it is the same one. -/
theorem site?_eq_target {path : Path} (h : disk.site? path = some p) : p = disk.target path :=
  simplify_eq_some (Option.filter_eq_some_iff.mp h).1

/-! ### The file -/

/-- Content that is not blank is in a file that is a database. -/
theorem entry?_of_contentAt (h : disk.contentAt place ≠ .blank) :
    ∃ file, disk.entry? place = some (.database file) ∧ file.content = disk.contentAt place := by
  unfold contentAt databaseAt at h ⊢
  cases he : disk.entry? place with
  | none => simp [he] at h
  | some entry =>
      cases entry with
      | database file => exact ⟨file, rfl, by simp [Link.held?]⟩
      | directory => simp [he, Link.held?] at h
      | text content => by_cases hsize : Link.isUnwritten content.utf8ByteSize <;>
          simp [he, Link.held?, hsize] at h
      | bytes size => by_cases hsize : Link.isUnwritten size <;> simp [he, Link.held?, hsize] at h

/-- A database that is there is opened as it is. -/
theorem openFile_database {mode : Mode} {file : DatabaseFile} {opened : Disk}
    (hfile : disk.entry? place = some (.database file)) (h : disk.openFile mode place = .ok opened) :
    opened = disk ∧ disk.isDirectory place.dropLast = true := by
  unfold openFile at h
  rw [hfile] at h
  split at h
  · rename_i hdirectory
    exact ⟨(Except.ok.inj h).symm, hdirectory⟩
  · cases h

/-! ### What a connection finds -/

/-- A connection to the file at this place finds the same about it on both disks. -/
structure Alike (a : Address) (place : Place) (disk disk' : Disk) : Prop where
  current : disk'.current = disk.current
  /-- What the log and its memory are not concerned with is there or not as before. -/
  shapes : ∀ p, ¬ IsBeside place p → disk'.shape? p = disk.shape? p
  directories : ∀ p, disk'.isDirectory p = disk.isDirectory p
  /-- Memory that the connection cannot make for itself is there or not as before. -/
  memory : a.borrowsMemory disk place →
    disk'.shape? (beside place memoryEnding) = disk.shape? (beside place memoryEnding)
  /-- The file stays a database, as much locked and logged as before. -/
  file : ∀ file, disk.entry? place = some (.database file) →
    ∃ file', disk'.entry? place = some (.database file') ∧ file'.locked = file.locked ∧
      file'.logged = file.logged

namespace Alike

variable {a : Address} {disk'' : Disk}

theorem refl (a : Address) (place : Place) (disk : Disk) : Alike a place disk disk :=
  ⟨rfl, fun _ _ => rfl, fun _ => rfl, fun _ => rfl, fun file h => ⟨file, h, rfl, rfl⟩⟩

theorem borrowsMemory_eq (h : Alike a place disk disk') :
    a.borrowsMemory disk' place = a.borrowsMemory disk place := by
  rw [Address.borrowsMemory, Address.borrowsMemory, h.directories]

theorem symm (h : Alike a place disk disk') {file : DatabaseFile}
    (hfile : disk.entry? place = some (.database file)) : Alike a place disk' disk := by
  refine ⟨h.current.symm, fun p hp => (h.shapes p hp).symm, fun p => (h.directories p).symm,
    fun hb => (h.memory (h.borrowsMemory_eq.symm.trans hb)).symm, fun file' hfile' => ?_⟩
  obtain ⟨file'', hfile'', hlocked, hlogged⟩ := h.file file hfile
  obtain rfl : file'' = file' := by simpa [hfile''] using hfile'
  exact ⟨file, hfile, hlocked.symm, hlogged.symm⟩

theorem trans (h : Alike a place disk disk') (h' : Alike a place disk' disk'') :
    Alike a place disk disk'' := by
  refine ⟨h'.current.trans h.current, fun p hp => (h'.shapes p hp).trans (h.shapes p hp),
    fun p => (h'.directories p).trans (h.directories p), fun hb => ?_, fun file hfile => ?_⟩
  · exact (h'.memory (h.borrowsMemory_eq.trans hb)).trans (h.memory hb)
  · obtain ⟨file', hfile', hlocked, hlogged⟩ := h.file file hfile
    obtain ⟨file'', hfile'', hlocked', hlogged'⟩ := h'.file file' hfile'
    exact ⟨file'', hfile'', hlocked'.trans hlocked, hlogged'.trans hlogged⟩

/-- A database was put in the place of another one. -/
theorem put {file file' : DatabaseFile} (hfile : disk.entry? place = some (.database file))
    (hlocked : file'.locked = file.locked) (hlogged : file'.logged = file.logged) :
    Alike a place disk (disk.put place (.database file')) := by
  have hroot : place ≠ [] := by
    rintro rfl
    cases hfile
  have hshape (p : Place) : (disk.put place (.database file')).shape? p = disk.shape? p := by
    rw [shape?, lookup_put]
    split
    · rename_i hp
      rw [hp.2, shape?, hfile]
      rfl
    · rfl
  refine ⟨rfl, fun p _ => hshape p, fun p => ?_, fun _ => hshape _, fun other hother => ?_⟩
  · rw [isDirectory_eq, isDirectory_eq, hshape]
  · rw [hfile] at hother
    cases hother
    exact ⟨file', by rw [lookup_put, if_pos ⟨hroot, rfl⟩], hlocked, hlogged⟩

theorem adjust {file : DatabaseFile} {f : DatabaseFile → DatabaseFile}
    (hfile : disk.entry? place = some (.database file)) (hlocked : (f file).locked = file.locked)
    (hlogged : (f file).logged = file.logged) : Alike a place disk (disk.adjust place f) := by
  rw [Disk.adjust, hfile]
  exact put hfile hlocked hlogged

theorem keep {file : DatabaseFile} (hfile : disk.entry? place = some (.database file))
    (content : Database) : Alike a place disk (disk.keep place content) := by
  unfold Disk.keep
  split
  · exact refl a place disk
  · have hat : disk.databaseAt place = file := by
      rw [databaseAt, hfile]
      rfl
    rw [hat]
    exact put hfile rfl rfl

end Alike

/-! ### The log and its memory -/

/-- The disks differ at most in whether there is a file at this place. -/
structure SameBut (q : Place) (disk disk' : Disk) : Prop where
  current : disk'.current = disk.current
  entries : ∀ p, p ≠ q → disk'.entry? p = disk.entry? p
  directories : ∀ p, disk'.isDirectory p = disk.isDirectory p

theorem sameBut_putFile (disk : Disk) (q : Place) {entry : Entry} (he : entry.isDirectory = false) :
    SameBut q disk (disk.putFile q entry) := by
  unfold putFile
  split
  · exact ⟨rfl, fun _ _ => rfl, fun _ => rfl⟩
  · rename_i hq
    refine ⟨rfl, fun p hp => ?_, fun p => ?_⟩
    · rw [lookup_put, if_neg fun h => hp h.2]
    · rw [isDirectory_eq, isDirectory_eq, shape?, lookup_put]
      split
      · rename_i hp
        rw [isDirectory_eq] at hq
        simpa [hp.2, he] using hq
      · rfl

theorem sameBut_removeFile (disk : Disk) (q : Place) : SameBut q disk (disk.removeFile q) := by
  have hentry (p : Place) : Disk.entry? { disk with entries := disk.entries.erase q } p
      = if p ≠ [] ∧ p = q then none else disk.entry? p := by
    by_cases hroot : p = []
    · simp [ entry?, hroot]
    · simp [ entry?, hroot, SortedMap.get?_erase]
  unfold removeFile
  split
  · exact ⟨rfl, fun _ _ => rfl, fun _ => rfl⟩
  · rename_i hq
    refine ⟨rfl, fun p hp => ?_, fun p => ?_⟩
    · rw [hentry, if_neg fun h => hp h.2]
    · rw [isDirectory_eq, isDirectory_eq, shape?, hentry]
      split
      · rename_i hp
        rw [isDirectory_eq] at hq
        simpa [hp.2] using hq
      · rfl

/-- What lies beside a file has a name of its own for each ending. -/
theorem beside_inj {ending ending' : EntryName} (h : beside place ending = beside place ending') :
    ending = ending' := by
  have hnames := List.append_cancel_left h
  simpa using hnames

theorem not_isBeside_beside {ending : EntryName} (hlog : ending ≠ logEnding)
    (hmemory : ending ≠ memoryEnding) : ¬ IsBeside place (beside place ending) := by
  rintro (h | h)
  · exact hlog (beside_inj h)
  · exact hmemory (beside_inj h)

namespace Alike

variable {a : Address} {file : DatabaseFile}

/-- The log came or went. -/
theorem of_log (h : SameBut (beside place logEnding) disk disk') : Alike a place disk disk' := by
  have hshape (p : Place) (hp : p ≠ beside place logEnding) : disk'.shape? p = disk.shape? p := by
    rw [shape?, h.entries p hp, shape?]
  refine ⟨h.current, fun p hp => hshape p fun heq => hp (.inl heq), h.directories,
    fun _ => hshape _ fun heq => absurd (beside_inj heq) (by decide),
    fun file hfile => ⟨file, ?_, rfl, rfl⟩⟩
  rw [h.entries place fun heq => not_isBeside_self place (.inl heq), hfile]

/-- The memory came or went, and the connection does not need others to make it. -/
theorem of_memory (hb : a.borrowsMemory disk place = false)
    (h : SameBut (beside place memoryEnding) disk disk') : Alike a place disk disk' := by
  have hshape (p : Place) (hp : p ≠ beside place memoryEnding) : disk'.shape? p = disk.shape? p := by
    rw [shape?, h.entries p hp, shape?]
  refine ⟨h.current, fun p hp => hshape p fun heq => hp (.inr heq), h.directories,
    fun hborrows => ?_, fun file hfile => ⟨file, ?_, rfl, rfl⟩⟩
  · rw [hb] at hborrows
    cases hborrows
  · rw [h.entries place fun heq => not_isBeside_self place (.inr heq), hfile]

theorem layOut (disk : Disk) (place : Place) :
    Alike a place disk (disk.layOut place (!a.borrowsMemory disk place)) := by
  have hlog : Alike a place disk (disk.putFile (beside place logEnding) (.text "")) :=
    of_log (sameBut_putFile disk _ rfl)
  unfold Disk.layOut
  cases hb : a.borrowsMemory disk place with
  | true => exact hlog
  | false =>
      refine hlog.trans (of_memory ?_ (sameBut_putFile _ _ rfl))
      rw [hlog.borrowsMemory_eq, hb]

theorem clearAway (hb : a.borrowsMemory disk place = false) (memory : Bool) :
    Alike a place disk (disk.clearAway place memory) := by
  have hlog : Alike a place disk (disk.removeFile (beside place logEnding)) :=
    of_log (sameBut_removeFile disk _)
  unfold Disk.clearAway
  cases memory with
  | false => exact hlog
  | true =>
      refine hlog.trans (of_memory ?_ (sameBut_removeFile _ _))
      rw [hlog.borrowsMemory_eq, hb]

theorem tidy (a : Address) (disk : Disk) (place : Place) : Alike a place disk (a.tidy disk place) := by
  unfold Address.tidy
  split
  · exact refl a place disk
  · split
    · exact layOut disk place
    · rename_i hnot
      simp only [Bool.or_eq_true, not_or, Bool.not_eq_true] at hnot
      exact clearAway hnot.2 _

/-- What a connection leaves behind it is all the same to the next one. -/
theorem store_close (hw : disk.contentAt place ≠ .blank) (content : Database) :
    Alike a place disk ((disk.store (.file a place) content).close (.file a place)) := by
  obtain ⟨file, hfile, -⟩ := entry?_of_contentAt hw
  have hkeep : Alike a place disk (disk.keep place content) := keep hfile content
  have hstore : Alike a place disk (disk.store (.file a place) content) := by
    unfold Disk.store
    simp only
    split
    · exact hkeep.trans (tidy a _ place)
    · exact hkeep
  obtain ⟨file', hfile', -⟩ := hstore.file file hfile
  refine hstore.trans (adjust hfile' ?_ ?_) <;>
    · unfold DatabaseFile.closed
      split <;> rfl

end Alike

/-! ### Connecting again -/

/-- Making the connection has changed nothing that it looks at. -/
theorem Alike.of_connect {a : Address} {path : String}
    (hc : disk.connect path = .ok (.file a place, disk')) (hw : disk.contentAt place ≠ .blank) :
    Alike a place disk disk' := by
  obtain ⟨file, hfile, -⟩ := entry?_of_contentAt hw
  obtain ⟨way, opened, -, -, -, hopen, rfl⟩ := connect_file hc
  obtain ⟨rfl, -⟩ := openFile_database hfile hopen
  exact .adjust hfile rfl rfl

/-- Who connects again where the same is found is connected to the same file. -/
theorem Alike.link_eq {a : Address} {path : String} {link : Link} {opened opened' : Disk}
    (h : Alike a place disk disk') (hc : disk.connect path = .ok (.file a place, opened))
    (hagain : disk'.connect path = .ok (link, opened')) : link = .file a place := by
  obtain ⟨way, _, ha, hfile?, hsite, -⟩ := connect_file hc
  match link, hagain with
  | .own readOnly, hagain =>
      -- The address is the same, and it names a file.
      simp only [Disk.connect, bind, Except.bind, pure, Except.pure, ha, hfile?] at hagain
      repeat' split at hagain
      all_goals cases hagain
  | .file a' place', hagain =>
      obtain ⟨way', _, ha', hfile?', hsite', -⟩ := connect_file hagain
      obtain rfl : a = a' := Except.ok.inj (ha.symm.trans ha')
      obtain rfl : way = way' := Option.some.inj (hfile?.symm.trans hfile?')
      have htarget : disk'.target way = disk.target way := by
        rw [target, target, start, start, h.current]
      rw [site?_eq_target hsite', site?_eq_target hsite, htarget]

/-- Who has connected to a database connects again where the same is found. -/
theorem Alike.connect {a : Address} {path : String} {opened : Disk} (h : Alike a place disk disk')
    (hw : disk.contentAt place ≠ .blank) (hresembled : a.resembled = none)
    (hway : ∀ way p, a.file? = some way → IsBeside place p → ¬ disk.Passes way p)
    (hc : disk.connect path = .ok (.file a place, opened)) :
    ∃ opened', disk'.connect path = .ok (.file a place, opened') := by
  obtain ⟨file, hfile, -⟩ := entry?_of_contentAt hw
  obtain ⟨way, disk₀, ha, hfile?, hsite, hopen, -⟩ := connect_file hc
  obtain ⟨-, hdirectory⟩ := openFile_database hfile hopen
  obtain ⟨file', hfile', -⟩ := h.file file hfile
  have hsite' : disk'.site? way = some place := by
    rw [← hsite]
    refine site?_congr h.current fun p hp => h.shapes p fun hbeside => ?_
    exact hway way p hfile? hbeside hp
  have hopen' : disk'.openFile a.mode place = .ok disk' := by
    unfold openFile
    rw [h.directories, if_pos hdirectory, hfile']
  refine ⟨disk'.adjust place (·.opened a), ?_⟩
  simp [Disk.connect, bind, Except.bind, pure, Except.pure, ha, hfile?, hsite', hresembled, hopen']

/-- Two disks that are alike are worked on under the same terms. -/
theorem Alike.terms_eq {a : Address} (h : Alike a place disk disk') (hw : disk.contentAt place ≠ .blank)
    (hw' : disk'.contentAt place ≠ .blank) :
    ((Link.file a place).session disk').terms = ((Link.file a place).session disk).terms := by
  obtain ⟨file, hfile, hcontent⟩ := entry?_of_contentAt hw
  obtain ⟨file', hfile', hlocked, hlogged⟩ := h.file file hfile
  have hcontent' : file'.content = disk'.contentAt place := by
    rw [contentAt, databaseAt, hfile']
    rfl
  have hborrows := h.borrowsMemory_eq
  have hlock : Link.lockFault? disk' a place = Link.lockFault? disk a place := by
    have hapart : ¬ IsBeside place (beside place lockEnding) :=
      not_isBeside_beside (by decide) (by decide)
    have hshape := h.shapes _ hapart
    rw [Link.lockFault?, Link.lockFault?, ← isSome_shape?, ← isSome_shape?, hshape]
  have hleftover : Link.leftoverFault? disk' a place (.database file')
      = Link.leftoverFault? disk a place (.database file) := by
    have hwritten : Link.isWritten (.database file) = true := by
      simp [Link.isWritten, Link.held?, hcontent, hw]
    have hwritten' : Link.isWritten (.database file') = true := by
      simp [Link.isWritten, Link.held?, hcontent', hw']
    simp only [Link.leftoverFault?, hwritten, hwritten', h.directories]
  have hfollows : a.followsLog disk' place file'.locked = a.followsLog disk place file.locked := by
    rw [Address.followsLog, Address.followsLog, hlocked, hborrows]
    cases hb : a.borrowsMemory disk place with
    | false => simp
    | true => rw [← isSome_shape?, ← isSome_shape?, h.memory hb]
  have hread : Link.contentFault? disk' a place (.database file')
      = Link.contentFault? disk a place (.database file) := by
    simp only [Link.contentFault?, Link.held?, hlogged, hfollows]
  have hobstacle : Link.obstacle? disk' a place file' = Link.obstacle? disk a place file := by
    simp only [Link.obstacle?, hlocked, hlogged, hborrows, h.directories]
  simp only [Link.session, hfile, hfile', Option.getD_some, Link.held?, Session.terms, hlock, hleftover,
    hread, hobstacle]

end Disk

/-! ### Stores -/

namespace Service

variable {ε α : Type} {h h₁ : Host} {link : Option Link} {w : Terms} {db : Database}

/-- The store connects again once it has answered a call. -/
def Reconnects (h : Host) (c : Call) : Prop := ∃ linked h', connect (h.after (.call c)) = .ok linked h'

/-- Whatever work is done on a connection, it is given up in the end. -/
theorem leftBy_work {session : Session} (refused : StorageFault → ε) (action : Action ε α)
    (hc : connect h = .ok (link, session) h₁) :
    ∃ s, leftBy (work refused action h) = release link s h₁ := by
  simp only [work, hc]
  cases action session with
  | ok a s => exact ⟨s, rfl⟩
  | error e s => exact ⟨s, rfl⟩

/-- After a call the store is as it was, or it has made a connection and given it up. -/
theorem after_call {session : Session} (c : Call) (hc : connect (announced h c) = .ok (link, session) h₁) :
    h.after (.call c) = announced h c ∨ ∃ s, h.after (.call c) = release link s h₁ := by
  rw [Host.after, call_eq]
  split
  · exact .inr (leftBy_work CallError.ofStorage c.program.run hc)
  · exact .inl rfl

/-- A store in memory stays there. -/
theorem memory_after_call (hb : h.service.backing = .memory db) (c : Call) :
    ∃ db', (h.after (.call c)).service.backing = .memory db' := by
  have hc : connect (announced h c) = .ok (none, { database := db }) (announced h c) := by
    rw [connect, show (announced h c).service.backing = .memory db from hb]
  rcases after_call c hc with hafter | ⟨s, hafter⟩
  · exact ⟨db, by rw [hafter]; exact hb⟩
  · exact ⟨s.database, by rw [hafter]; rfl⟩

/-- Who connects without a link connects to memory, where nothing is in the way. -/
theorem backing_of_connects_none (hc : Connects h none w db) :
    h.service.backing = .memory db ∧ w = .free := by
  obtain ⟨h₁, hconnect⟩ := hc
  cases hb : h.service.backing with
  | memory db' =>
      obtain ⟨h₂, hfree⟩ := connects_memory hb
      obtain ⟨hsession, -⟩ := EStateM.Result.ok.inj (hfree.symm.trans hconnect)
      have hsame : Terms.free.session db' = w.session db := (Prod.mk.inj hsession).2
      obtain rfl : db' = db := congrArg Session.database hsame
      exact ⟨rfl, (congrArg Session.terms hsame).symm⟩
  | file path =>
      unfold connect at hconnect
      rw [hb] at hconnect
      simp only at hconnect
      split at hconnect <;> simp at hconnect

/-- A connection to a file is made on the disk. -/
theorem connect_some {session : Session} {link : Link} (hc : connect h = .ok (some link, session) h₁) :
    ∃ path, h.service.backing = .file path ∧ h.disk.connect path = .ok (link, h₁.disk) ∧
      session = link.session h₁.disk := by
  unfold connect at hc
  split at hc
  · simp at hc
  · rename_i path hb
    split at hc
    · rename_i hd
      simp only [EStateM.Result.ok.injEq, Prod.mk.injEq, Option.some.injEq] at hc
      obtain ⟨⟨rfl, rfl⟩, rfl⟩ := hc
      exact ⟨path, hb, hd, rfl⟩
    · simp at hc

theorem connect_of_disk {path : String} {link : Link} {disk : Disk} (hb : h.service.backing = .file path)
    (hd : h.disk.connect path = .ok (link, disk)) :
    ∃ h₁, connect h = .ok (some link, link.session disk) h₁ := by
  refine ⟨{ h with disk := disk, journal := h.journal ++ [connected] }, ?_⟩
  rw [connect, hb]
  simp only [hd]

/-- No call takes a table away. -/
theorem isMigrated_after_call (hc : Connects h link w db) (hm : db.IsMigrated) (c : Call) :
    (content (h.after (.call c)) link).IsMigrated := by
  by_cases hopen : h.service.gate.isOpen
  · obtain ⟨h', hcall, hcontent⟩ := call_effect c hc hopen
    rw [Host.after, hcall, leftBy_ended, hcontent]
    exact hm.of_edited (Call.edited_program c w db)
  · obtain ⟨h', hcall, hcontent⟩ := content_of_closed c hopen link
    rw [Host.after, hcall]
    show (content h' link).IsMigrated
    rwa [hcontent, hc.content_eq]

/-- The address of a file leads there straight: it names no file to resemble, and its way does not come
past the log or its memory. -/
def LeadsStraight (h : Host) : Option Link → Prop
  | some (.file a place) =>
      a.resembled = none ∧
        ∀ way p, a.file? = some way → Disk.IsBeside place p → ¬ h.disk.Passes way p
  | _ => True

/-- An ordinary path leads straight to its file. -/
example : LeadsStraight { service := .inFile "data/access.db" {}, disk := { entries := .empty } }
    (some (.file { path := .ofText "data/access.db" } [Text.octets "data", Text.octets "access.db"])) := by
  refine ⟨rfl, ?_⟩
  intro way p hway hbeside hpasses
  cases hway
  rcases hbeside with rfl | rfl <;>
    · unfold Disk.Passes at hpasses
      revert hpasses
      decide

/-- There is a database in the file that a store has connected to. -/
theorem contentAt_ne_blank {a : Address} {place : Place} (hc : Connects h (some (.file a place)) w db)
    (hm : db.IsMigrated) : h.disk.contentAt place ≠ .blank := by
  have hcontent : h.disk.contentAt place = db := hc.content_eq
  rw [hcontent]
  exact hm.ne_blank

/-- A call of a store in a file leaves the disk such that a connection finds the same there. -/
theorem alike_after_call {a : Address} {place : Place} (hc : Connects h (some (.file a place)) w db)
    (hm : db.IsMigrated) (c : Call) :
    ∃ path opened, (h.after (.call c)).service.backing = .file path ∧
      h.disk.connect path = .ok (.file a place, opened) ∧
      (Link.file a place).session opened = w.session db ∧
      Disk.Alike a place h.disk (h.after (.call c)).disk := by
  have htold : Connects (announced h c) (some (.file a place)) w db := hc.of_same rfl rfl
  obtain ⟨h₁, hconnect⟩ := htold
  obtain ⟨path, hb, hd, hsession⟩ := connect_some hconnect
  rcases after_call c hconnect with hafter | ⟨s, hafter⟩
  · refine ⟨path, h₁.disk, by rw [hafter, hb], hd, hsession.symm, ?_⟩
    rw [hafter]
    exact .refl a place h.disk
  · have hbacking : (h.after (.call c)).service.backing = .file path := by
      rw [hafter, ← hb, ← service_of_connect hconnect]
      rfl
    have hdisk : (h.after (.call c)).disk
        = (h₁.disk.store (.file a place) s.database).close (.file a place) := by
      rw [hafter]
      rfl
    -- The database is there before the call and while the file is open.
    have hbefore := contentAt_ne_blank hc hm
    have hopened : h₁.disk.contentAt place ≠ .blank := by
      rwa [Disk.contentAt_connect hd place]
    refine ⟨path, h₁.disk, hbacking, hd, hsession.symm, ?_⟩
    rw [hdisk]
    exact (Disk.Alike.of_connect hd hbefore).trans (.store_close hopened s.database)

/-- A store in a file connects alike, in whatever mode it opens the file and whoever else holds a lock
on it. -/
theorem connects_again_file {a : Address} {place : Place} {c : Call}
    (hc : Connects h (some (.file a place)) w db) (hm : db.IsMigrated) (hagain : Reconnects h c) :
    Connects (h.after (.call c)) (some (.file a place)) w
      (content (h.after (.call c)) (some (.file a place))) := by
  obtain ⟨path, opened, hbacking, hd, hsession, halike⟩ := alike_after_call hc hm c
  obtain ⟨⟨link?, session⟩, h₂, hconnect⟩ := hagain
  obtain ⟨link, disk₂, hd₂⟩ :
      ∃ link disk₂, (h.after (.call c)).disk.connect path = .ok (link, disk₂) := by
    unfold connect at hconnect
    rw [hbacking] at hconnect
    cases hlinked : (h.after (.call c)).disk.connect path with
    | ok linked => exact ⟨linked.1, linked.2, rfl⟩
    | error fault => simp [hlinked] at hconnect
  obtain rfl := halike.link_eq hd hd₂
  -- The database is there before the call, and after it as well.
  have hbefore := contentAt_ne_blank hc hm
  have hafter : (h.after (.call c)).disk.contentAt place ≠ .blank :=
    (isMigrated_after_call hc hm c).ne_blank
  obtain ⟨file, hfile, -⟩ := Disk.entry?_of_contentAt hbefore
  have hopening := Disk.Alike.of_connect hd hbefore
  have hround := (hopening.symm hfile).trans (halike.trans (.of_connect hd₂ hafter))
  have hcontent := Disk.contentAt_connect hd place
  have hcontent₂ := Disk.contentAt_connect hd₂ place
  have hterms := hround.terms_eq (by rwa [hcontent]) (by rwa [hcontent₂])
  obtain ⟨h₃, hconnect₃⟩ := connect_of_disk hbacking hd₂
  obtain ⟨w', hsession'⟩ := session_of_connect hconnect₃
  have hw : w' = w := by
    rw [hsession', hsession] at hterms
    exact hterms
  refine ⟨h₃, ?_⟩
  rw [hconnect₃, hsession', database_session, hcontent₂, hw]
  rfl

/-- **A store that connects again does so alike**: to the same database, on the same terms. -/
theorem connects_again {c : Call} (hc : Connects h link w db) (hm : db.IsMigrated)
    (hagain : Reconnects h c) :
    Connects (h.after (.call c)) link w (content (h.after (.call c)) link) := by
  match link, hc with
  | some (.file a place), hc => exact connects_again_file hc hm hagain
  | some (.own readOnly), hc => exact absurd hc.content_eq.symm hm.ne_blank
  | none, hc =>
      obtain ⟨hb, rfl⟩ := backing_of_connects_none hc
      obtain ⟨db', hb'⟩ := memory_after_call hb c
      have hafter := connects_memory hb'
      rwa [hafter.content_eq]

/-- **A store whose address leads straight to its file connects again**, and so does one in memory. -/
theorem reconnects_of_straight (hc : Connects h link w db) (hm : db.IsMigrated)
    (hstraight : LeadsStraight h link) (c : Call) : Reconnects h c := by
  match link, hc, hstraight with
  | some (.file a place), hc, hstraight =>
      obtain ⟨path, opened, hbacking, hd, -, halike⟩ := alike_after_call hc hm c
      obtain ⟨disk₂, hd₂⟩ := halike.connect (contentAt_ne_blank hc hm) hstraight.1 hstraight.2 hd
      obtain ⟨h₂, hconnect⟩ := connect_of_disk hbacking hd₂
      exact ⟨_, h₂, hconnect⟩
  | some (.own readOnly), hc, _ => exact absurd hc.content_eq.symm hm.ne_blank
  | none, hc, _ =>
      obtain ⟨hb, -⟩ := backing_of_connects_none hc
      obtain ⟨db', hb'⟩ := memory_after_call hb c
      obtain ⟨h₂, hconnect⟩ := connects_memory hb'
      exact ⟨_, h₂, hconnect⟩

end Service

end AccessStore
