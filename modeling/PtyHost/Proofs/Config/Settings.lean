import Mathlib.Data.Option.Basic
import PtyHost.Config.FromToml
import PtyHost.Proofs.Text.Utf8

/-!
# The settings of a configuration, one by one

A configuration is a record of sections. Here it is seen as what it says of each setting, and a
table as what is given for it: under its key if its section is a table, at its place if it is an
array. The defaults stand at two spots, with the sections that a table leaves out and with the
settings that a section leaves out, and a setting cannot tell which of them it has its value from.

Main statement: `ofEntries?_eq_some_iff`, on which tables a configuration can be read from, and what
it then says of each setting.
-/

namespace PtyHost.Config

open Toml (Value Entries)

/-! ### Kinds of settings -/

/-- What the values of a setting are like. -/
inductive Kind
  | text
  | byte
  | word
  | natural
  | flag
  | assignments
  | optional (kind : Kind)
deriving DecidableEq, Repr

namespace Kind

/-- The values of a kind. -/
def Domain : Kind → Type
  | text => String
  | byte => UInt8
  | word => UInt16
  | natural => Nat
  | flag => Bool
  | assignments => List (String × String)
  | optional kind => Option kind.Domain

/-- Whether a value in a table stands for one of a kind. -/
def Says : (kind : Kind) → Value → kind.Domain → Prop
  | text, v, s => v = .string s
  | byte, v, b => v = .integer (UInt8.toNat b)
  | word, v, w => v = .integer (UInt16.toNat w)
  | natural, v, (n : Nat) => v = .integer n ∧ n < 2 ^ 64
  | flag, v, b => v = .boolean b
  | assignments, v, vars =>
    (∃ origin, v = .table origin (List.map (fun var ↦ (var.1, .string var.2)) vars)) ∨
      ∃ d, v = .datetime d ∧ vars = [(dateKey, d.display)]
  | optional kind, v, x => ∃ y, x = some y ∧ kind.Says v y

/-- The value of a kind that a value in a table is read as. -/
def decode? : (kind : Kind) → Value → Option kind.Domain
  | text => text?
  | byte => byte?
  | word => word?
  | natural => natural?
  | flag => flag?
  | assignments => environment?
  | optional kind => fun v ↦ (kind.decode? v).map some

end Kind

section Decode

variable {v : Value}

/-- A value is read as a text if it is one. -/
theorem text?_eq_some_iff {s : String} : text? v = some s ↔ v = .string s := by
  cases v <;> simp [text?]

/-- A value is read as a truth value if it is one. -/
theorem flag?_eq_some_iff {b : Bool} : flag? v = some b ↔ v = .boolean b := by
  cases v <;> simp [flag?]

/-- A value is read as a number if it is one, neither negative nor beyond the limit. -/
theorem number?_eq_some_iff {limit n : Nat} :
    number? limit v = some n ↔ v = .integer n ∧ n ≤ limit := by
  unfold number?
  split
  · next m =>
    rw [Option.ite_none_right_eq_some, Option.some.injEq, Value.integer.injEq]
    constructor
    · rintro ⟨hle, rfl⟩
      exact ⟨rfl, hle⟩
    · rintro ⟨heq, hle⟩
      obtain rfl : m = n := Int.ofNat.inj heq
      exact ⟨hle, rfl⟩
  · next hnot => exact iff_of_false (by simp) fun h ↦ hnot n h.1

/-- A value is read as a number of 8 bits if it is one. -/
theorem byte?_eq_some_iff {b : UInt8} : byte? v = some b ↔ v = .integer b.toNat := by
  simp only [byte?, Option.map_eq_some_iff, number?_eq_some_iff]
  constructor
  · rintro ⟨n, ⟨rfl, hle⟩, rfl⟩
    rw [Nat.toUInt8_eq, UInt8.toNat_ofNat_of_lt' (Nat.lt_succ_of_le hle)]
  · rintro rfl
    exact ⟨b.toNat, ⟨rfl, Nat.le_of_lt_succ b.toNat_lt⟩, UInt8.ofNat_toNat⟩

/-- A value is read as a number of 16 bits if it is one. -/
theorem word?_eq_some_iff {w : UInt16} : word? v = some w ↔ v = .integer w.toNat := by
  simp only [word?, Option.map_eq_some_iff, number?_eq_some_iff]
  constructor
  · rintro ⟨n, ⟨rfl, hle⟩, rfl⟩
    rw [Nat.toUInt16_eq, UInt16.toNat_ofNat_of_lt' (Nat.lt_succ_of_le hle)]
  · rintro rfl
    exact ⟨w.toNat, ⟨rfl, Nat.le_of_lt_succ w.toNat_lt⟩, UInt16.ofNat_toNat⟩

/-- A list is read as a whole if each of its members is the form of one that is read. -/
theorem mapM_eq_some_iff_map {α β : Type} {f : α → Option β} {g : β → α}
    (h : ∀ a b, f a = some b ↔ a = g b) {l : List α} {r : List β} :
    l.mapM f = some r ↔ l = r.map g := by
  rw [mapM_eq_some_iff]
  induction l generalizing r with
  | nil => cases r <;> simp
  | cons a l ih => cases r <;> simp [h, ih]

/-- Variables are read from a table of texts, or from a date. -/
theorem environment?_eq_some_iff {vars : List (String × String)} :
    environment? v = some vars ↔
      (∃ origin, v = .table origin (vars.map fun var ↦ (var.1, .string var.2))) ∨
        ∃ d, v = .datetime d ∧ vars = [(dateKey, d.display)] := by
  have hentry (entry : String × Value) (var : String × String) :
      (text? entry.2).map (fun s ↦ (entry.1, s)) = some var ↔ entry = (var.1, .string var.2) := by
    obtain ⟨key, value⟩ := entry
    obtain ⟨name, s⟩ := var
    simp only [Option.map_eq_some_iff, text?_eq_some_iff, Prod.mk.injEq]
    constructor
    · rintro ⟨_, rfl, rfl, rfl⟩
      exact ⟨rfl, rfl⟩
    · rintro ⟨rfl, rfl⟩
      exact ⟨_, rfl, rfl, rfl⟩
  unfold environment?
  split
  · simp [mapM_eq_some_iff_map hentry]
  · simp [eq_comm]
  · next htable hdate =>
    refine iff_of_false (by simp) ?_
    rintro (⟨origin, rfl⟩ | ⟨d, rfl, -⟩)
    · exact htable _ _ rfl
    · exact hdate _ rfl

/-- What a value in a table is read as is what it stands for. -/
theorem Kind.decode?_eq_some_iff {kind : Kind} {x : kind.Domain} :
    kind.decode? v = some x ↔ kind.Says v x := by
  induction kind with
  | text => exact text?_eq_some_iff
  | byte => exact byte?_eq_some_iff
  | word => exact word?_eq_some_iff
  | natural =>
    have hlimit (n : Nat) : n ≤ Nat.pow 2 64 - 1 ↔ n < 2 ^ 64 :=
      Nat.le_sub_one_iff_lt (Nat.pow_pos (by decide))
    exact number?_eq_some_iff.trans (and_congr_right fun _ ↦ hlimit x)
  | flag => exact flag?_eq_some_iff
  | assignments => exact environment?_eq_some_iff
  | optional kind ih =>
    refine Option.map_eq_some_iff.trans (exists_congr fun y ↦ ?_)
    constructor
    · rintro ⟨hy, hx⟩
      exact ⟨hx.symm, ih.1 hy⟩
    · rintro ⟨hx, hy⟩
      exact ⟨ih.2 hy, hx.symm⟩

/-- Whether a value of a kind is that which is given, or the default if none is. -/
def Kind.Reads (kind : Kind) (given : Option Value) (default x : kind.Domain) : Prop :=
  match given with
  | some v => kind.Says v x
  | none => x = default

/-- A setting is read as what is given for it, or has its default. -/
theorem Source.setting_eq_some_iff {s : Source} {place : Nat} {key : String} {kind : Kind}
    {default x : kind.Domain} :
    s.setting place key kind.decode? default = some x ↔
      kind.Reads (s.value? place key) default x := by
  unfold Source.setting Kind.Reads
  cases s.value? place key with
  | none => exact Option.some_inj.trans eq_comm
  | some v => exact Kind.decode?_eq_some_iff

end Decode

/-- A value in a table stands for one value of a kind at most. -/
theorem Kind.Says.unique {kind : Kind} {v : Value} {x y : kind.Domain} (hx : kind.Says v x)
    (hy : kind.Says v y) : x = y :=
  Option.some.inj ((decode?_eq_some_iff.2 hx).symm.trans (decode?_eq_some_iff.2 hy))

/-! ### Settings -/

/-- The settings of a configuration. -/
inductive Setting
  | defaultShell
  | term
  | rows
  | cols
  | workingDir
  | gracePeriodMs
  | terminateSignal
  | xonXoff
  | utf8
  | erase
  | autoClose
  | monitorActivity
  | monitorSilence
  | silenceSeconds
  | env
  | program
  | maxSessions
  | level
deriving DecidableEq, Repr

namespace Setting

/-- What the values of a setting are like. -/
def kind : Setting → Kind
  | term | terminateSignal | level => .text
  | defaultShell | workingDir | program => .optional .text
  | erase => .optional .byte
  | rows | cols => .word
  | gracePeriodMs | silenceSeconds | maxSessions => .natural
  | xonXoff | utf8 | autoClose | monitorActivity | monitorSilence => .flag
  | env => .assignments

/-- What a configuration says of a setting. -/
def get (c : Config) : (k : Setting) → k.kind.Domain
  | defaultShell => c.session.defaultShell
  | term => c.session.term
  | rows => c.session.rows
  | cols => c.session.cols
  | workingDir => c.session.workingDir
  | gracePeriodMs => c.session.gracePeriodMs
  | terminateSignal => c.session.terminateSignal
  | xonXoff => c.session.xonXoff
  | utf8 => c.session.utf8
  | erase => c.session.erase
  | autoClose => c.session.autoClose
  | monitorActivity => c.session.monitorActivity
  | monitorSilence => c.session.monitorSilence
  | silenceSeconds => c.session.silenceSeconds
  | env => c.session.env
  | program => c.broker.program
  | maxSessions => c.registry.maxSessions
  | level => c.logging.level

/-- The key of the section that a setting is in. -/
def sectionKey : Setting → String
  | program => "broker"
  | maxSessions => "registry"
  | level => "logging"
  | _ => "session"

/-- The key of a setting in its section. -/
def key : Setting → String
  | defaultShell => "default_shell"
  | term => "term"
  | rows => "rows"
  | cols => "cols"
  | workingDir => "working_dir"
  | gracePeriodMs => "grace_period_ms"
  | terminateSignal => "terminate_signal"
  | xonXoff => "xon_xoff"
  | utf8 => "utf8"
  | erase => "erase"
  | autoClose => "auto_close"
  | monitorActivity => "monitor_activity"
  | monitorSilence => "monitor_silence"
  | silenceSeconds => "silence_seconds"
  | env => "env"
  | program => "program"
  | maxSessions => "max_sessions"
  | level => "level"

/-- The place of a setting in its section. -/
def place : Setting → Nat
  | defaultShell | program | maxSessions | level => 0
  | term => 1
  | rows => 2
  | cols => 3
  | workingDir => 4
  | gracePeriodMs => 5
  | terminateSignal => 6
  | xonXoff => 7
  | utf8 => 8
  | erase => 9
  | autoClose => 10
  | monitorActivity => 11
  | monitorSilence => 12
  | silenceSeconds => 13
  | env => 14

/-- What a table gives for a setting: what stands under its key, or at its place if its section is
an array. -/
def given? (entries : Entries) (k : Setting) : Option Value :=
  match entries.lookup k.sectionKey with
  | some (.table _ inner) => inner.lookup k.key
  | some (.array _ items) => items[k.place]?
  | _ => none

/-- Whether a value is that which a table gives for a setting, or the default if it gives none. -/
def Reads (entries : Entries) (k : Setting) (x : k.kind.Domain) : Prop :=
  k.kind.Reads (k.given? entries) (get {} k) x

end Setting

/-- What sessions are set to is what is said of their settings. -/
theorem session_ext {s t : SessionSection}
    (h : ∀ k : Setting, k.sectionKey = "session" →
      k.get { session := s } = k.get { session := t }) : s = t := by
  obtain ⟨⟩ := s
  obtain ⟨⟩ := t
  rw [SessionSection.mk.injEq]
  exact ⟨h .defaultShell rfl, h .term rfl, h .rows rfl, h .cols rfl, h .workingDir rfl,
    h .gracePeriodMs rfl, h .terminateSignal rfl, h .xonXoff rfl, h .utf8 rfl, h .erase rfl,
    h .autoClose rfl, h .monitorActivity rfl, h .monitorSilence rfl, h .silenceSeconds rfl,
    h .env rfl⟩

/-- What a configuration says of the settings of sessions is said in its section. -/
theorem get_session {k : Setting} (hk : k.sectionKey = "session") (c : Config) :
    k.get { session := c.session } = k.get c := by
  cases k <;> first | rfl | exact absurd hk (by decide)

/-- A configuration is what it says of its settings. -/
theorem ext_get {c d : Config} (h : ∀ k : Setting, k.get c = k.get d) : c = d := by
  have hsession : c.session = d.session :=
    session_ext fun k hk ↦ (get_session hk c).trans ((h k).trans (get_session hk d).symm)
  obtain ⟨session, broker, registry, logging⟩ := c
  obtain ⟨session', broker', registry', logging'⟩ := d
  rw [Config.mk.injEq]
  exact ⟨hsession, congrArg BrokerSection.mk (h .program),
    congrArg RegistrySection.mk (h .maxSessions), congrArg LoggingSection.mk (h .level)⟩

/-! ### Sections -/

/-- Whether a section can be read, of which at least some settings have to be there if it is an
array: it is missing, or a table, an array or a date. -/
def IsSection (least : Nat) : Option Value → Prop
  | none | some (.table ..) | some (.datetime _) => True
  | some (.array _ items) => least ≤ items.length
  | some _ => False

section Sections

variable {entries : Entries} {v : Value} {src : Source}

/-- What a table gives for a setting stands in its section. -/
theorem given?_of_section {k : Setting} (h : entries.lookup k.sectionKey = some v)
    (hsrc : Source.ofValue? v = some src) : k.given? entries = src.value? k.place k.key := by
  unfold Setting.given?
  rw [h]
  cases v <;> cases hsrc <;> rfl

/-- A section that is there can be read if it has settings under keys, or enough of them in
order. -/
theorem isSection_some_iff {least : Nat} :
    IsSection least (some v) ↔ ∃ src, Source.ofValue? v = some src ∧ src.reaches least = true := by
  cases v <;> simp [IsSection, Source.ofValue?, Source.reaches]

/-- Whether a configuration has what a section gives for its settings. -/
def Source.Gives (src : Source) (name : String) (c : Config) : Prop :=
  ∀ k : Setting, k.sectionKey = name →
    k.kind.Reads (src.value? k.place k.key) (k.get {}) (k.get c)

/-- A list always goes as far as no setting. -/
theorem reaches_zero (src : Source) : src.reaches 0 = true := by
  cases src <;> simp [Source.reaches]

/-- The settings of sessions are read one by one. -/
theorem session?_eq_some_iff {s : SessionSection} :
    session? v = some s ↔ ∃ src, Source.ofValue? v = some src ∧ src.reaches 10 = true ∧
      src.Gives "session" { session := s } := by
  constructor
  · intro h
    obtain ⟨src, hsrc, h⟩ := Option.bind_eq_some_iff.1 h
    obtain ⟨_, hreaches, h⟩ := Option.bind_eq_some_iff.1 h
    obtain ⟨shell, hshell, h⟩ := Option.bind_eq_some_iff.1 h
    obtain ⟨term, hterm, h⟩ := Option.bind_eq_some_iff.1 h
    obtain ⟨rows, hrows, h⟩ := Option.bind_eq_some_iff.1 h
    obtain ⟨cols, hcols, h⟩ := Option.bind_eq_some_iff.1 h
    obtain ⟨dir, hdir, h⟩ := Option.bind_eq_some_iff.1 h
    obtain ⟨grace, hgrace, h⟩ := Option.bind_eq_some_iff.1 h
    obtain ⟨signal, hsignal, h⟩ := Option.bind_eq_some_iff.1 h
    obtain ⟨xonXoff, hxonXoff, h⟩ := Option.bind_eq_some_iff.1 h
    obtain ⟨utf8, hutf8, h⟩ := Option.bind_eq_some_iff.1 h
    obtain ⟨erase, herase, h⟩ := Option.bind_eq_some_iff.1 h
    obtain ⟨close, hclose, h⟩ := Option.bind_eq_some_iff.1 h
    obtain ⟨activity, hactivity, h⟩ := Option.bind_eq_some_iff.1 h
    obtain ⟨silence, hsilence, h⟩ := Option.bind_eq_some_iff.1 h
    obtain ⟨seconds, hseconds, h⟩ := Option.bind_eq_some_iff.1 h
    obtain ⟨env, henv, h⟩ := Option.bind_eq_some_iff.1 h
    obtain rfl := Option.some.inj h
    refine ⟨src, hsrc, (Option.guard_eq_some' _).1 hreaches, fun k hk ↦ ?_⟩
    -- Each of the settings stands for a line of the reader, and the others are elsewhere.
    cases k <;> first | exact Source.setting_eq_some_iff.1 ‹_› | exact absurd hk (by decide)
  · rintro ⟨src, hsrc, hreaches, h⟩
    refine Option.bind_eq_some_iff.2 ⟨src, hsrc, ?_⟩
    refine Option.bind_eq_some_iff.2 ⟨(), (Option.guard_eq_some' ()).2 hreaches, ?_⟩
    refine Option.bind_eq_some_iff.2 ⟨_, Source.setting_eq_some_iff.2 (h .defaultShell rfl), ?_⟩
    refine Option.bind_eq_some_iff.2 ⟨_, Source.setting_eq_some_iff.2 (h .term rfl), ?_⟩
    refine Option.bind_eq_some_iff.2 ⟨_, Source.setting_eq_some_iff.2 (h .rows rfl), ?_⟩
    refine Option.bind_eq_some_iff.2 ⟨_, Source.setting_eq_some_iff.2 (h .cols rfl), ?_⟩
    refine Option.bind_eq_some_iff.2 ⟨_, Source.setting_eq_some_iff.2 (h .workingDir rfl), ?_⟩
    refine Option.bind_eq_some_iff.2 ⟨_, Source.setting_eq_some_iff.2 (h .gracePeriodMs rfl), ?_⟩
    refine Option.bind_eq_some_iff.2 ⟨_, Source.setting_eq_some_iff.2 (h .terminateSignal rfl), ?_⟩
    refine Option.bind_eq_some_iff.2 ⟨_, Source.setting_eq_some_iff.2 (h .xonXoff rfl), ?_⟩
    refine Option.bind_eq_some_iff.2 ⟨_, Source.setting_eq_some_iff.2 (h .utf8 rfl), ?_⟩
    refine Option.bind_eq_some_iff.2 ⟨_, Source.setting_eq_some_iff.2 (h .erase rfl), ?_⟩
    refine Option.bind_eq_some_iff.2 ⟨_, Source.setting_eq_some_iff.2 (h .autoClose rfl), ?_⟩
    refine Option.bind_eq_some_iff.2 ⟨_, Source.setting_eq_some_iff.2 (h .monitorActivity rfl), ?_⟩
    refine Option.bind_eq_some_iff.2 ⟨_, Source.setting_eq_some_iff.2 (h .monitorSilence rfl), ?_⟩
    refine Option.bind_eq_some_iff.2 ⟨_, Source.setting_eq_some_iff.2 (h .silenceSeconds rfl), ?_⟩
    refine Option.bind_eq_some_iff.2 ⟨_, Source.setting_eq_some_iff.2 (h .env rfl), ?_⟩
    rfl

/-- The only setting of a section is read as what the section gives for it. -/
theorem only_setting_eq_some_iff {α : Type} {a : α} (k : Setting) (make : k.kind.Domain → α)
    (config : α → Config) (honly : ∀ l : Setting, l.sectionKey = k.sectionKey → l = k)
    (hget : ∀ x, k.get (config (make x)) = x) (hmake : ∀ a, make (k.get (config a)) = a) :
    ((src.setting k.place k.key k.kind.decode? (k.get {})).bind fun x ↦ some (make x)) = some a ↔
      src.Gives k.sectionKey (config a) := by
  rw [Option.bind_eq_some_iff]
  constructor
  · rintro ⟨x, hx, ha⟩ l hl
    obtain rfl := Option.some.inj ha
    obtain rfl := honly l hl
    rw [hget]
    exact Source.setting_eq_some_iff.1 hx
  · intro h
    exact ⟨k.get (config a), Source.setting_eq_some_iff.2 (h k rfl), congrArg some (hmake a)⟩

/-- The setting of the permission helper is read. -/
theorem broker?_eq_some_iff {b : BrokerSection} :
    broker? v = some b ↔ ∃ src, Source.ofValue? v = some src ∧ src.reaches 1 = true ∧
      src.Gives "broker" { broker := b } := by
  refine Option.bind_eq_some_iff.trans (exists_congr fun src ↦ and_congr_right fun _ ↦ ?_)
  have hprogram : _ = some b ↔ src.Gives "broker" { broker := b } :=
    only_setting_eq_some_iff .program BrokerSection.mk (fun b ↦ { broker := b })
      (fun l ↦ by cases l <;> decide) (fun _ ↦ rfl) fun _ ↦ rfl
  refine Option.bind_eq_some_iff.trans ?_
  constructor
  · rintro ⟨_, hreaches, h⟩
    exact ⟨(Option.guard_eq_some' _).1 hreaches, hprogram.1 h⟩
  · rintro ⟨hreaches, h⟩
    exact ⟨(), (Option.guard_eq_some' ()).2 hreaches, hprogram.2 h⟩

/-- The setting of the registry is read. -/
theorem registry?_eq_some_iff {r : RegistrySection} :
    registry? v = some r ↔ ∃ src, Source.ofValue? v = some src ∧ src.reaches 0 = true ∧
      src.Gives "registry" { registry := r } := by
  refine Option.bind_eq_some_iff.trans (exists_congr fun src ↦ and_congr_right fun _ ↦ ?_)
  rw [reaches_zero, and_iff_right rfl]
  exact only_setting_eq_some_iff .maxSessions RegistrySection.mk (fun r ↦ { registry := r })
    (fun l ↦ by cases l <;> decide) (fun _ ↦ rfl) fun _ ↦ rfl

/-- The setting of logging is read. -/
theorem logging?_eq_some_iff {l : LoggingSection} :
    logging? v = some l ↔ ∃ src, Source.ofValue? v = some src ∧ src.reaches 0 = true ∧
      src.Gives "logging" { logging := l } := by
  refine Option.bind_eq_some_iff.trans (exists_congr fun src ↦ and_congr_right fun _ ↦ ?_)
  rw [reaches_zero, and_iff_right rfl]
  exact only_setting_eq_some_iff .level LoggingSection.mk (fun l ↦ { logging := l })
    (fun l ↦ by cases l <;> decide) (fun _ ↦ rfl) fun _ ↦ rfl

/-- A section is read from a table if it can be read and gives the settings that it has, and it has
the defaults of its settings if it is missing. -/
theorem section_eq_some_iff {α : Type} {least place : Nat} {name : String}
    {read? : Value → Option α} {default x : α} (config : α → Config)
    (hread : ∀ v, read? v = some x ↔ ∃ src, Source.ofValue? v = some src ∧
      src.reaches least = true ∧ src.Gives name (config x))
    (hdefault : (∀ k : Setting, k.sectionKey = name → k.get (config x) = k.get {}) ↔ x = default) :
    (Source.keyed entries).setting place name read? default = some x ↔
      IsSection least (entries.lookup name) ∧
        ∀ k : Setting, k.sectionKey = name → k.Reads entries (k.get (config x)) := by
  unfold Source.setting Source.value?
  simp only
  -- A missing section has its default, the settings of one that is there have theirs: here the two
  -- copies of the defaults meet.
  cases hlookup : entries.lookup name with
  | none =>
    have hnone (k : Setting) (hk : k.sectionKey = name) : k.given? entries = none := by
      rw [Setting.given?, hk, hlookup]
    have hmissing : IsSection least none := trivial
    rw [Option.some_inj, eq_comm, ← hdefault, and_iff_right hmissing]
    refine forall₂_congr fun k hk ↦ ?_
    rw [Setting.Reads, hnone k hk]
    rfl
  | some v =>
    have hgiven {src : Source} (hsrc : Source.ofValue? v = some src) (k : Setting)
        (hk : k.sectionKey = name) : k.given? entries = src.value? k.place k.key :=
      given?_of_section (hk ▸ hlookup) hsrc
    rw [hread, isSection_some_iff]
    constructor
    · rintro ⟨src, hsrc, hreaches, hgives⟩
      refine ⟨⟨src, hsrc, hreaches⟩, fun k hk ↦ ?_⟩
      rw [Setting.Reads, hgiven hsrc k hk]
      exact hgives k hk
    · rintro ⟨⟨src, hsrc, hreaches⟩, h⟩
      refine ⟨src, hsrc, hreaches, fun k hk ↦ ?_⟩
      rw [← hgiven hsrc k hk]
      exact h k hk

end Sections

/-! ### Tables -/

/-- A configuration is read from a table if its sections can be read, and it has the value of each
setting that the table gives, and of any other the default. -/
theorem ofEntries?_eq_some_iff {entries : Entries} {c : Config} :
    ofEntries? entries = some c ↔
      (IsSection 10 (entries.lookup "session") ∧ IsSection 1 (entries.lookup "broker") ∧
        IsSection 0 (entries.lookup "registry") ∧ IsSection 0 (entries.lookup "logging")) ∧
      ∀ k : Setting, k.Reads entries (k.get c) := by
  have hsession (s : SessionSection) :
      (Source.keyed entries).setting 0 "session" session? {} = some s ↔ _ :=
    section_eq_some_iff (fun s ↦ { session := s }) (fun _ ↦ session?_eq_some_iff)
      ⟨session_ext, fun h _ _ ↦ h ▸ rfl⟩
  have hbroker (b : BrokerSection) :
      (Source.keyed entries).setting 1 "broker" broker? {} = some b ↔ _ :=
    section_eq_some_iff (fun b ↦ { broker := b }) (fun _ ↦ broker?_eq_some_iff)
      ⟨fun h ↦ congrArg BrokerSection.mk (h .program rfl), fun h _ _ ↦ h ▸ rfl⟩
  have hregistry (r : RegistrySection) :
      (Source.keyed entries).setting 2 "registry" registry? {} = some r ↔ _ :=
    section_eq_some_iff (fun r ↦ { registry := r }) (fun _ ↦ registry?_eq_some_iff)
      ⟨fun h ↦ congrArg RegistrySection.mk (h .maxSessions rfl), fun h _ _ ↦ h ▸ rfl⟩
  have hlogging (l : LoggingSection) :
      (Source.keyed entries).setting 3 "logging" logging? {} = some l ↔ _ :=
    section_eq_some_iff (fun l ↦ { logging := l }) (fun _ ↦ logging?_eq_some_iff)
      ⟨fun h ↦ congrArg LoggingSection.mk (h .level rfl), fun h _ _ ↦ h ▸ rfl⟩
  constructor
  · intro h
    obtain ⟨session, hs, h⟩ := Option.bind_eq_some_iff.1 h
    obtain ⟨broker, hb, h⟩ := Option.bind_eq_some_iff.1 h
    obtain ⟨registry, hr, h⟩ := Option.bind_eq_some_iff.1 h
    obtain ⟨logging, hl, h⟩ := Option.bind_eq_some_iff.1 h
    obtain rfl := Option.some.inj h
    obtain ⟨hs, hsettings⟩ := (hsession _).1 hs
    obtain ⟨hb, hprogram⟩ := (hbroker _).1 hb
    obtain ⟨hr, hmax⟩ := (hregistry _).1 hr
    obtain ⟨hl, hlevel⟩ := (hlogging _).1 hl
    refine ⟨⟨hs, hb, hr, hl⟩, fun k ↦ ?_⟩
    cases k with
    | program => exact hprogram _ rfl
    | maxSessions => exact hmax _ rfl
    | level => exact hlevel _ rfl
    | _ => exact hsettings _ rfl
  · rintro ⟨⟨hs, hb, hr, hl⟩, h⟩
    have hsettings (k : Setting) (hk : k.sectionKey = "session") :
        k.Reads entries (k.get { session := c.session }) := get_session hk c ▸ h k
    refine Option.bind_eq_some_iff.2 ⟨_, (hsession c.session).2 ⟨hs, hsettings⟩, ?_⟩
    refine Option.bind_eq_some_iff.2 ⟨_, (hbroker c.broker).2 ⟨hb, fun k hk ↦ ?_⟩, ?_⟩
    · cases k <;> first | exact h .program | exact absurd hk (by decide)
    refine Option.bind_eq_some_iff.2 ⟨_, (hregistry c.registry).2 ⟨hr, fun k hk ↦ ?_⟩, ?_⟩
    · cases k <;> first | exact h .maxSessions | exact absurd hk (by decide)
    refine Option.bind_eq_some_iff.2 ⟨_, (hlogging c.logging).2 ⟨hl, fun k hk ↦ ?_⟩, ?_⟩
    · cases k <;> first | exact h .level | exact absurd hk (by decide)
    rfl

end PtyHost.Config
