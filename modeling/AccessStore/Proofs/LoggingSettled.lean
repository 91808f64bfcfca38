/-
Logging is settled once.

A request asks for settings if its level, trimmed and in lower case, is the name of one, and its
directory, trimmed, is an absolute path: `Asks`, which says so of the characters, while the request
itself looks at octets and folds a text before it compares it.  The first request that asks for
settings and whose start succeeds settles them for good, and later ones are only compared with them:
`settled_by_first`.

A start may do anything and fail in any way, and each request finds the world as it is by then.  So
the theorems hold whatever making the directory and starting the writer of the file come to, and
whatever others do in between.
-/
import AccessStore.Proofs.Members
import AccessStore.Proofs.OctetOrder
import AccessStore.Proofs.Trimming
import AccessStore.Logging

namespace AccessStore

open Json

/-! ### Paths, character by character -/

namespace Text

variable {c : Char} {cs ds : List Char}

theorem encode_ascii (h : c.toNat < 128) : String.utf8EncodeChar c = [UInt8.ofNat c.toNat] :=
  if_pos (Nat.le_of_lt_succ h)

/-- Of an encoding that takes several octets, none stands for a character on its own. -/
theorem le_of_mem_encode {b : UInt8} (h : 128 ≤ c.toNat) (hb : b ∈ String.utf8EncodeChar c) :
    128 ≤ b.toNat := by
  have hlead (k m n : Nat) (hk : 0 < k) (hn : 128 ≤ n) (hsum : n + k ≤ 256) :
      128 ≤ (UInt8.ofNat (m % k + n)).toNat := by
    have hmod : m % k < k := Nat.mod_lt m hk
    rw [UInt8.toNat_ofNat_of_lt' (show m % k + n < 256 by omega)]
    omega
  have hval : ¬ c.val.toNat ≤ 127 := by
    have hval : c.val.toNat = c.toNat := rfl
    omega
  simp only [String.utf8EncodeChar, if_neg hval] at hb
  split_ifs at hb <;> simp only [List.mem_cons, List.not_mem_nil, or_false] at hb
  · rcases hb with rfl | rfl <;> exact hlead _ _ _ (by omega) (by omega) (by omega)
  · rcases hb with rfl | rfl | rfl <;> exact hlead _ _ _ (by omega) (by omega) (by omega)
  · rcases hb with rfl | rfl | rfl | rfl <;> exact hlead _ _ _ (by omega) (by omega) (by omega)

/-- Of all characters only the slash is encoded with a slash. -/
theorem slash_mem_encode : Disk.slash ∈ String.utf8EncodeChar c ↔ c = '/' := by
  constructor
  · intro hmem
    by_cases hascii : c.toNat < 128
    · rw [encode_ascii hascii, List.mem_singleton] at hmem
      have hcode : 47 = (UInt8.ofNat c.toNat).toNat := congrArg UInt8.toNat hmem
      rw [UInt8.toNat_ofNat_of_lt' (show c.toNat < 256 by omega)] at hcode
      exact Char.toNat_inj.mp hcode.symm
    · exact absurd (le_of_mem_encode (not_lt.mp hascii) hmem) (by decide)
  · rintro rfl
    decide

theorem octetsOfChars_inj : octetsOfChars cs = octetsOfChars ds ↔ cs = ds := by
  constructor
  · intro heq
    by_contra hne
    rcases lt_or_gt_of_ne hne with hlt | hlt
    · have hless := compare_octetsOfChars hlt
      rw [heq, Std.ReflOrd.compare_self] at hless
      cases hless
    · have hless := compare_octetsOfChars hlt
      rw [heq, Std.ReflOrd.compare_self] at hless
      cases hless
  · rintro rfl
    rfl

theorem isAbsolute_ofText (s : String) :
    Disk.isAbsolute (.ofText s) = true ↔ s.toList.head? = some '/' := by
  rw [Disk.isAbsolute, Path.ofText, octets, decide_eq_true_eq]
  cases s.toList with
  | nil => simp [octetsOfChars]
  | cons c rest =>
      rw [octetsOfChars_cons, List.head?_cons, Option.some.injEq]
      constructor
      · intro hhead
        cases hoctets : String.utf8EncodeChar c with
        | nil => exact absurd hoctets String.utf8EncodeChar_ne_nil
        | cons b bs =>
            rw [hoctets] at hhead
            have hb : b = Disk.slash := Option.some.inj hhead
            apply slash_mem_encode.mp
            rw [hoctets, hb]
            exact List.mem_cons_self
      · rintro rfl
        rfl

/-! ### Names on a path -/

section

variable {α : Type} [BEq α] [LawfulBEq α] {a : α} {xs ys first : List α} {others : List (List α)}

theorem splitOn_separator (a : α) (rest : List α) : (a :: rest).splitOn a = [] :: rest.splitOn a := by
  simp [List.splitOn, List.splitOnP_cons_eq_if_modifyHead]

/-- What comes before the first separator belongs to the first part. -/
theorem splitOn_append (h : a ∉ xs) (hsplit : ys.splitOn a = first :: others) :
    (xs ++ ys).splitOn a = (xs ++ first) :: others := by
  induction xs with
  | nil => exact hsplit
  | cons x xs ih =>
      rw [List.mem_cons, not_or] at h
      have hne : ¬ (x == a) = true := fun heq => h.1 (eq_of_beq heq).symm
      have hrest := ih h.2
      unfold List.splitOn at hrest ⊢
      rw [List.cons_append, List.splitOnP_cons_eq_if_modifyHead, hrest, if_neg hne]
      rfl

end

/-- The octets of a path have their slashes where its characters have them. -/
theorem parts_octetsOfChars (cs : List Char) :
    Disk.parts (octetsOfChars cs) = (cs.splitOn '/').map octetsOfChars := by
  induction cs with
  | nil => rfl
  | cons c rest ih =>
      rw [octetsOfChars_cons]
      by_cases hc : c = '/'
      · subst hc
        rw [splitOn_separator, List.map_cons, ← ih]
        exact splitOn_separator Disk.slash _
      · obtain ⟨first, others, hsplit⟩ :=
          List.exists_cons_of_ne_nil (List.splitOnP_ne_nil (· == '/') rest)
        change rest.splitOn '/' = first :: others at hsplit
        have hoctets : (octetsOfChars rest).splitOn Disk.slash
            = octetsOfChars first :: others.map octetsOfChars := by
          rw [hsplit] at ih
          exact ih
        have hchar : '/' ∉ [c] := by simpa using Ne.symm hc
        rw [Disk.parts, splitOn_append (slash_mem_encode.not.mpr hc) hoctets,
          show c :: rest = [c] ++ rest from rfl, splitOn_append hchar hsplit]
        rfl

/-- The names on a path, apart from the empty ones and from the dots for staying where one is. -/
def segments (s : String) : List (List Char) :=
  (s.toList.splitOn '/').filter fun name => name ≠ [] ∧ name ≠ ['.']

theorem names_ofText (s : String) : Disk.names (.ofText s) = (segments s).map octetsOfChars := by
  rw [Disk.names, Path.ofText, octets, parts_octetsOfChars, List.filter_map, segments]
  refine congrArg _ (List.filter_congr fun name _ => ?_)
  have hnil : octetsOfChars name = [] ↔ name = [] := @octetsOfChars_inj name []
  have hstay : octetsOfChars name = Disk.stay ↔ name = ['.'] := @octetsOfChars_inj name ['.']
  simp only [Function.comp, ne_eq, hnil, hstay]

/-- The names on a path are those before a slash and those after it. -/
theorem segments_slash (s t : String) : segments (s ++ "/" ++ t) = segments s ++ segments t := by
  have hsplit : (s ++ "/" ++ t).toList.splitOn '/' = s.toList.splitOn '/' ++ t.toList.splitOn '/' := by
    rw [String.toList_append, String.toList_append, List.append_assoc]
    exact List.splitOnP_append_cons s.toList t.toList rfl
  rw [segments, hsplit, List.filter_append]
  rfl

end Text

namespace Logging

variable {level directory : String} {wanted settings : LogSettings} {fault : LoggingFault} {l : Level}

/-- Two paths have the same names on them. -/
theorem sameDirectory_iff (a b : String) :
    sameDirectory a b = true ↔ Text.segments a = Text.segments b := by
  have hinj : Function.Injective Text.octetsOfChars := fun _ _ => Text.octetsOfChars_inj.mp
  rw [sameDirectory, decide_eq_true_eq, Text.names_ofText, Text.names_ofText]
  exact (List.map_injective_iff.mpr hinj).eq_iff

/-! ### What is asked for -/

/-- The names of a level. -/
def spellings : Level → List String
  | .error => ["error"]
  | .warn => ["warn", "warning"]
  | .info => ["info"]
  | .debug => ["debug"]
  | .trace => ["trace"]

/-- A text spells a name, blank characters at its ends and the case of its letters aside. -/
def Spells (s name : String) : Prop :=
  ∃ cs, Text.Trimmed s.toList cs ∧ name.toList = cs.map Char.toLower

/-- A text spells a name of a level. -/
def Names (level : String) (l : Level) : Prop := ∃ name ∈ spellings l, Spells level name

/-- The texts of a request ask for these settings. -/
structure Asks (level directory : String) (wanted : LogSettings) : Prop where
  level : Names level wanted.level
  directory : Text.Trimmed directory.toList wanted.directory.toList
  absolute : wanted.directory.toList.head? = some '/'

/-- The texts of a request ask for no settings, for this reason.  The directory is only looked at where
the level has a name. -/
inductive Unacceptable (level directory : String) : LoggingFault → Prop
  | level {name : String} (h : ∀ l, ¬ Names level l) (hname : Spells level name) :
      Unacceptable level directory (.unknownLevel name)
  | empty (l : Level) (h : Names level l) (hempty : Text.Trimmed directory.toList []) :
      Unacceptable level directory .emptyDirectory
  | relative (l : Level) {path : String} (h : Names level l)
      (hpath : Text.Trimmed directory.toList path.toList) (hgiven : path ≠ "")
      (hrelative : path.toList.head? ≠ some '/') :
      Unacceptable level directory (.relativeDirectory path)

theorem spells_iff {s name : String} : Spells s name ↔ folded s = name := by
  rw [folded, ← String.toList_inj, String.toList_ofList]
  constructor
  · rintro ⟨cs, htrimmed, hname⟩
    rw [htrimmed.trimChars_eq, hname]
  · intro hname
    exact ⟨_, Text.trimmed_trimChars s.toList, hname.symm⟩

theorem names_iff : Names level l ↔ folded level ∈ spellings l := by
  simp only [Names, spells_iff]
  constructor
  · rintro ⟨name, hmem, rfl⟩
    exact hmem
  · intro hmem
    exact ⟨_, hmem, rfl⟩

theorem parseLevel_ok_iff : parseLevel level = .ok l ↔ Names level l := by
  rw [parseLevel, names_iff]
  generalize folded level = name
  constructor
  · intro hok
    split at hok
    · rename_i named hfind
      obtain rfl := Except.ok.inj hok
      have hname : named.1 = name := by simpa using List.find?_some hfind
      rw [← hname]
      rcases List.mem_cons.mp (List.mem_of_find?_eq_some hfind) with rfl | hmem
      · decide
      · obtain ⟨l, -, rfl⟩ := List.mem_map.mp hmem
        cases l <;> decide
    · cases hok
  · intro hmem
    cases l <;> simp only [spellings, List.mem_cons, List.not_mem_nil, or_false] at hmem
    case warn => rcases hmem with rfl | rfl <;> rfl
    all_goals
      subst hmem
      rfl

theorem parseLevel_error_iff : parseLevel level = .error fault ↔
    (∀ l, ¬ Names level l) ∧ ∃ name, Spells level name ∧ fault = .unknownLevel name := by
  simp only [← parseLevel_ok_iff, spells_iff]
  unfold parseLevel
  split
  · simp
  · simp [eq_comm]

theorem parseDirectory_ok_iff {path : String} : parseDirectory directory = .ok path ↔
    Text.Trimmed directory.toList path.toList ∧ path.toList.head? = some '/' := by
  rw [← Text.trim_eq_iff]
  dsimp only [parseDirectory]
  constructor
  · intro hok
    split at hok
    · cases hok
    · split at hok
      · rename_i habsolute
        obtain rfl := Except.ok.inj hok
        exact ⟨rfl, (Text.isAbsolute_ofText _).mp habsolute⟩
      · cases hok
  · rintro ⟨rfl, habsolute⟩
    have hgiven : Text.trim directory ≠ "" := by
      intro hempty
      rw [hempty] at habsolute
      cases habsolute
    rw [if_neg hgiven, if_pos ((Text.isAbsolute_ofText _).mpr habsolute)]

theorem parseDirectory_error_iff : parseDirectory directory = .error fault ↔
    Text.Trimmed directory.toList [] ∧ fault = .emptyDirectory ∨
      ∃ path, Text.Trimmed directory.toList path.toList ∧ path ≠ "" ∧
        path.toList.head? ≠ some '/' ∧ fault = .relativeDirectory path := by
  have hnothing : Text.Trimmed directory.toList [] ↔ Text.trim directory = "" := by
    rw [Text.trim_eq_iff, String.toList_empty]
  simp only [hnothing, ← Text.trim_eq_iff, exists_eq_left']
  dsimp only [parseDirectory]
  by_cases hempty : Text.trim directory = ""
  · rw [if_pos hempty]
    simp only [hempty, true_and, ne_eq, not_true_eq_false, false_and, or_false, Except.error.injEq]
    exact eq_comm
  · simp only [hempty, if_false, false_and, false_or, ne_eq, not_false_eq_true, true_and]
    by_cases habsolute : (Text.trim directory).toList.head? = some '/'
    · rw [if_pos ((Text.isAbsolute_ofText _).mpr habsolute)]
      simp only [habsolute, not_true_eq_false, false_and, reduceCtorEq]
    · rw [if_neg (mt (Text.isAbsolute_ofText _).mp habsolute)]
      simp only [habsolute, not_false_eq_true, true_and, Except.error.injEq]
      exact eq_comm

theorem parse_ok_iff : parse level directory = .ok wanted ↔ Asks level directory wanted := by
  constructor
  · intro hok
    obtain ⟨l, hlevel, hok⟩ := bind_eq_ok.mp hok
    obtain ⟨path, hpath, hok⟩ := bind_eq_ok.mp hok
    obtain rfl := Except.ok.inj hok
    obtain ⟨hdirectory, habsolute⟩ := parseDirectory_ok_iff.mp hpath
    exact ⟨parseLevel_ok_iff.mp hlevel, hdirectory, habsolute⟩
  · rintro ⟨hlevel, hdirectory, habsolute⟩
    exact bind_eq_ok.mpr ⟨_, parseLevel_ok_iff.mpr hlevel,
      bind_eq_ok.mpr ⟨_, parseDirectory_ok_iff.mpr ⟨hdirectory, habsolute⟩, rfl⟩⟩

theorem parse_error_iff : parse level directory = .error fault ↔ Unacceptable level directory fault := by
  constructor
  · intro herror
    rcases bind_eq_error.mp herror with hlevel | ⟨l, hlevel, herror⟩
    · obtain ⟨hnone, name, hname, rfl⟩ := parseLevel_error_iff.mp hlevel
      exact .level hnone hname
    · have hnames := parseLevel_ok_iff.mp hlevel
      rcases bind_eq_error.mp herror with hpath | ⟨path, -, herror⟩
      · rcases parseDirectory_error_iff.mp hpath with
          ⟨hempty, rfl⟩ | ⟨path, htrimmed, hgiven, hrelative, rfl⟩
        · exact .empty l hnames hempty
        · exact .relative l hnames htrimmed hgiven hrelative
      · cases herror
  · intro hunacceptable
    cases hunacceptable with
    | level hnone hname =>
        exact bind_eq_error.mpr (.inl (parseLevel_error_iff.mpr ⟨hnone, _, hname, rfl⟩))
    | empty l hnames hempty =>
        have hpath := parseDirectory_error_iff.mpr (.inl ⟨hempty, rfl⟩)
        exact bind_eq_error.mpr (.inr ⟨l, parseLevel_ok_iff.mpr hnames, bind_eq_error.mpr (.inl hpath)⟩)
    | relative l hnames htrimmed hgiven hrelative =>
        have hpath := parseDirectory_error_iff.mpr (.inr ⟨_, htrimmed, hgiven, hrelative, rfl⟩)
        exact bind_eq_error.mpr (.inr ⟨l, parseLevel_ok_iff.mpr hnames, bind_eq_error.mpr (.inl hpath)⟩)

/-- A request asks for settings or is told why it does not. -/
theorem asks_or_unacceptable (level directory : String) :
    (∃ wanted, Asks level directory wanted) ∨ ∃ fault, Unacceptable level directory fault := by
  cases hparse : parse level directory with
  | ok wanted => exact .inl ⟨wanted, parse_ok_iff.mp hparse⟩
  | error fault => exact .inr ⟨fault, parse_error_iff.mp hparse⟩

theorem Asks.unique (h : Asks level directory wanted) (h' : Asks level directory settings) :
    wanted = settings :=
  Except.ok.inj ((parse_ok_iff.mpr h).symm.trans (parse_ok_iff.mpr h'))

theorem Asks.not_unacceptable (h : Asks level directory wanted) : ¬ Unacceptable level directory fault := by
  intro hfault
  have hok := parse_ok_iff.mpr h
  rw [parse_error_iff.mpr hfault] at hok
  cases hok

/-! ### One request -/

/-- The settings asked for are those in force, up to the spelling of the directory. -/
def Repeats (settings : LogSettings) (level directory : String) : Prop :=
  ∃ wanted, Asks level directory wanted ∧ settings.level = wanted.level ∧
    Text.segments settings.directory = Text.segments wanted.directory

/-- Why a request is refused while settings are in force.  A level without a name comes first, then a
directory that is none, then another directory, then another level. -/
inductive Refused (settings : LogSettings) (level directory : String) : LoggingFault → Prop
  | unacceptable {fault : LoggingFault} (h : Unacceptable level directory fault) :
      Refused settings level directory fault
  | otherDirectory {wanted : LogSettings} (h : Asks level directory wanted)
      (hother : Text.segments settings.directory ≠ Text.segments wanted.directory) :
      Refused settings level directory (.otherDirectory settings.directory wanted.directory)
  | otherLevel {wanted : LogSettings} (h : Asks level directory wanted)
      (hsame : Text.segments settings.directory = Text.segments wanted.directory)
      (hother : settings.level ≠ wanted.level) :
      Refused settings level directory (.otherLevel settings.level wanted.level)

theorem agree_ok_iff : agree settings wanted = .ok () ↔ settings.level = wanted.level ∧
    Text.segments settings.directory = Text.segments wanted.directory := by
  rw [← sameDirectory_iff, agree]
  cases sameDirectory settings.directory wanted.directory with
  | false => simp
  | true => by_cases hlevel : settings.level = wanted.level <;> simp [hlevel]

theorem agree_error_iff (h : Asks level directory wanted) :
    agree settings wanted = .error fault ↔ Refused settings level directory fault := by
  constructor
  · intro herror
    rw [agree] at herror
    split at herror
    · rename_i hother
      obtain rfl := Except.error.inj herror
      refine .otherDirectory h fun hsame => ?_
      rw [(sameDirectory_iff _ _).mpr hsame] at hother
      cases hother
    · rename_i hsame
      split at herror
      · rename_i hother
        obtain rfl := Except.error.inj herror
        exact .otherLevel h ((sameDirectory_iff _ _).mp (by simpa using hsame)) hother
      · cases herror
  · intro hrefused
    cases hrefused with
    | unacceptable hfault => exact absurd hfault h.not_unacceptable
    | otherDirectory h' hother =>
        obtain rfl := h.unique h'
        have hfalse : sameDirectory settings.directory wanted.directory = false :=
          Bool.eq_false_iff.mpr (mt (sameDirectory_iff _ _).mp hother)
        simp [agree, hfalse]
    | otherLevel h' hsame hother =>
        obtain rfl := h.unique h'
        simp [agree, (sameDirectory_iff _ _).mpr hsame, hother]

section

variable {σ : Type} (start : LogSettings → σ → Except LoggingFault Unit × σ)

theorem request_of_unacceptable (h : Unacceptable level directory fault) (active : Option LogSettings)
    (world : σ) : request start active level directory world = (.error fault, active, world) := by
  rw [request, parse_error_iff.mpr h]

/-- Nothing is in force yet: the answer is that of the start. -/
theorem request_of_unsettled (h : Asks level directory wanted) (world : σ) :
    request start none level directory world =
      ((start wanted world).1, if (start wanted world).1 = .ok () then some wanted else none,
        (start wanted world).2) := by
  rw [request, parse_ok_iff.mpr h]
  rcases hstart : start wanted world with ⟨(fault | ⟨⟩), world'⟩ <;> simp [hstart]

/-- Settings are in force: they stay, nothing is started, and the answer says whether they are asked
for again. -/
theorem request_of_settled (settings : LogSettings) (level directory : String) (world : σ) :
    ∃ answer, request start (some settings) level directory world = (answer, some settings, world) ∧
      (answer = .ok () ↔ Repeats settings level directory) ∧
      ∀ fault, answer = .error fault ↔ Refused settings level directory fault := by
  rcases asks_or_unacceptable level directory with ⟨wanted, hasks⟩ | ⟨fault, hfault⟩
  · refine ⟨agree settings wanted, ?_, ?_, fun fault => agree_error_iff hasks⟩
    · rw [request, parse_ok_iff.mpr hasks]
    · rw [agree_ok_iff]
      constructor
      · intro hsame
        exact ⟨wanted, hasks, hsame⟩
      · rintro ⟨wanted', hasks', hsame⟩
        obtain rfl := hasks.unique hasks'
        exact hsame
  · refine ⟨.error fault, request_of_unacceptable start hfault _ _, ?_, fun fault' => ?_⟩
    · constructor
      · intro hok
        cases hok
      · rintro ⟨wanted, hasks, -⟩
        exact absurd hfault hasks.not_unacceptable
    · constructor
      · intro herror
        obtain rfl := Except.error.inj herror
        exact .unacceptable hfault
      · intro hrefused
        cases hrefused with
        | unacceptable hfault' =>
            have hparse := (parse_error_iff.mpr hfault).symm.trans (parse_error_iff.mpr hfault')
            rw [Except.error.inj hparse]
        | otherDirectory hasks => exact absurd hfault hasks.not_unacceptable
        | otherLevel hasks => exact absurd hfault hasks.not_unacceptable

end

/-! ### Requests one after another -/

/-- A request for logging, by its texts and the world that it finds. -/
structure Attempt (σ : Type) where
  level : String
  directory : String
  world : σ

section

variable {σ : Type} (start : LogSettings → σ → Except LoggingFault Unit × σ)

/-- The settings in force after a request. -/
def attempt (active : Option LogSettings) (a : Attempt σ) : Option LogSettings :=
  (request start active a.level a.directory a.world).2.1

/-- The settings in force in a process after these requests, in this order. -/
def status (attempts : List (Attempt σ)) : Option LogSettings := attempts.foldl (attempt start) none

/-- The request asks for settings, and logging can be started with them. -/
def Attempt.Starts (a : Attempt σ) (settings : LogSettings) : Prop :=
  Asks a.level a.directory settings ∧ (start settings a.world).1 = .ok ()

variable {start} {a : Attempt σ} {attempts : List (Attempt σ)}

theorem attempt_settled : attempt start (some settings) a = some settings := by
  obtain ⟨answer, hrequest, -⟩ := request_of_settled start settings a.level a.directory a.world
  rw [attempt, hrequest]

theorem attempt_unsettled : attempt start none a = some settings ↔ a.Starts start settings := by
  rcases asks_or_unacceptable a.level a.directory with ⟨wanted, hasks⟩ | ⟨fault, hfault⟩
  · rw [attempt, request_of_unsettled start hasks]
    constructor
    · intro hsome
      dsimp only at hsome
      split at hsome
      · rename_i hok
        obtain rfl := Option.some.inj hsome
        exact ⟨hasks, hok⟩
      · cases hsome
    · rintro ⟨hasks', hok⟩
      obtain rfl := hasks.unique hasks'
      exact if_pos hok
  · rw [attempt, request_of_unacceptable start hfault]
    constructor
    · intro hsome
      cases hsome
    · rintro ⟨hasks, -⟩
      exact absurd hfault hasks.not_unacceptable

theorem foldl_settled : attempts.foldl (attempt start) (some settings) = some settings := by
  induction attempts with
  | nil => rfl
  | cons a rest ih => rw [List.foldl_cons, attempt_settled, ih]

/-- The first attempt that starts decides, and one that does not is as if it had not been made. -/
theorem status_cons : status start (a :: attempts) = some settings ↔
    a.Starts start settings ∨ (∀ s, ¬ a.Starts start s) ∧ status start attempts = some settings := by
  rw [status, List.foldl_cons]
  cases hactive : attempt start none a with
  | some first =>
      have hstarts := attempt_unsettled.mp hactive
      rw [foldl_settled, Option.some.injEq]
      constructor
      · rintro rfl
        exact .inl hstarts
      · rintro (hstarts' | ⟨hnone, -⟩)
        · exact hstarts.1.unique hstarts'.1
        · exact absurd hstarts (hnone first)
  | none =>
      have hnone (s : LogSettings) : ¬ a.Starts start s := by
        intro hstarts
        rw [attempt_unsettled.mpr hstarts] at hactive
        cases hactive
      constructor
      · intro hstatus
        exact .inr ⟨hnone, hstatus⟩
      · rintro (hstarts | ⟨-, hstatus⟩)
        · exact absurd hstarts (hnone settings)
        · exact hstatus

/-- The settings in force are those of the first attempt that started. -/
theorem status_eq_some_iff : status start attempts = some settings ↔
    ∃ before a later, attempts = before ++ a :: later ∧
      (∀ b ∈ before, ∀ s, ¬ b.Starts start s) ∧ a.Starts start settings := by
  induction attempts with
  | nil =>
      constructor
      · intro hstatus
        cases hstatus
      · rintro ⟨before, a, later, hsplit, -⟩
        simp at hsplit
  | cons first rest ih =>
      rw [status_cons, ih]
      constructor
      · rintro (hstarts | ⟨hnone, before, a, later, rfl, hbefore, hstarts⟩)
        · exact ⟨[], first, rest, rfl, by simp, hstarts⟩
        · exact ⟨first :: before, a, later, rfl, List.forall_mem_cons.mpr ⟨hnone, hbefore⟩, hstarts⟩
      · rintro ⟨before, a, later, hsplit, hbefore, hstarts⟩
        cases before with
        | nil =>
            obtain ⟨rfl, -⟩ := List.cons.inj hsplit
            exact .inl hstarts
        | cons b before =>
            obtain ⟨rfl, hrest⟩ := List.cons.inj hsplit
            obtain ⟨hnone, hbefore⟩ := List.forall_mem_cons.mp hbefore
            exact .inr ⟨hnone, before, a, later, hrest, hbefore, hstarts⟩

theorem status_eq_none_iff :
    status start attempts = none ↔ ∀ a ∈ attempts, ∀ s, ¬ a.Starts start s := by
  induction attempts with
  | nil => simp [status]
  | cons first rest ih =>
      rw [List.forall_mem_cons, ← ih]
      simp only [Option.eq_none_iff_forall_ne_some, ne_eq, status_cons, not_or, not_and]
      constructor
      · intro hnone
        exact ⟨fun s => (hnone s).1, fun s => (hnone s).2 fun s => (hnone s).1⟩
      · rintro ⟨hfirst, hrest⟩ s
        exact ⟨hfirst s, fun _ => hrest s⟩

theorem status_append (h : status start attempts = some settings) (later : List (Attempt σ)) :
    status start (attempts ++ later) = some settings := by
  unfold status at h ⊢
  rw [List.foldl_append, h, foldl_settled]

end

/-- **The first request that can be met settles logging for good.**  Until then nothing is in force.
From then on its settings are, nothing is started any more, and a request is met if it asks for the
same level and the same directory, and is refused otherwise.  How often a slash is repeated on the way
to the directory, and whether there are dots between slashes, makes no difference. -/
theorem settled_by_first {σ : Type} (start : LogSettings → σ → Except LoggingFault Unit × σ)
    (attempts : List (Attempt σ)) :
    (status start attempts = none ↔ ∀ a ∈ attempts, ∀ s, ¬ a.Starts start s) ∧
    (∀ settings, status start attempts = some settings ↔
      ∃ before a later, attempts = before ++ a :: later ∧
        (∀ b ∈ before, ∀ s, ¬ b.Starts start s) ∧ a.Starts start settings) ∧
    (∀ settings, status start attempts = some settings →
      (∀ later, status start (attempts ++ later) = some settings) ∧
      ∀ level directory world, ∃ answer,
        request start (status start attempts) level directory world = (answer, some settings, world) ∧
        (answer = .ok () ↔ Repeats settings level directory) ∧
        ∀ fault, answer = .error fault ↔ Refused settings level directory fault) ∧
    (∀ s t, Text.segments (s ++ "/" ++ t) = Text.segments s ++ Text.segments t) ∧
    Text.segments "" = [] ∧ Text.segments "." = [] := by
  refine ⟨status_eq_none_iff, fun _ => status_eq_some_iff, fun settings hsettled => ?_,
    Text.segments_slash, rfl, rfl⟩
  rw [hsettled]
  exact ⟨status_append hsettled, request_of_settled start settings⟩

/-- A request that names no level, and then one for a directory on an empty disk. -/
def twoAttempts : List (Attempt Disk) :=
  [⟨"verbose", "/var/log", { entries := .empty }⟩, ⟨" Warning", "/var//log/ ", { entries := .empty }⟩]

/-- The second settles the level and the directory, which can be spelled in other ways. -/
theorem settled_by_first_of_warning :
    status Logging.start twoAttempts = some ⟨.warn, "/var//log/"⟩ ∧ ∀ world,
      (request Logging.start (status Logging.start twoAttempts) "WARN" "/var/./log" world).1 = .ok () := by
  have hstatus : status Logging.start twoAttempts = some ⟨.warn, "/var//log/"⟩ := by decide +kernel
  refine ⟨hstatus, fun world => ?_⟩
  obtain ⟨-, -, hsettled, -⟩ := settled_by_first Logging.start twoAttempts
  obtain ⟨answer, hrequest, hok, -⟩ := (hsettled _ hstatus).2 "WARN" "/var/./log" world
  have hasks : Asks "WARN" "/var/./log" ⟨.warn, "/var/./log"⟩ :=
    parse_ok_iff.mp (by decide +kernel)
  rw [hrequest]
  exact hok.mpr ⟨_, hasks, rfl, by decide +kernel⟩

end Logging

end AccessStore
