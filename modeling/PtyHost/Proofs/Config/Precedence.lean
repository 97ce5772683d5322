import PtyHost.Config.Load
import PtyHost.Proofs.Config.Settings
import PtyHost.Proofs.Session.Deadlines
import PtyHost.Proofs.Text.Strict
import PtyHost.Toml.Document

/-!
# Where a setting has its value from

A setting has its value from the environment if a variable overrules it, else from the configuration
file if this gives it, else it is the default. This leaves one configuration, which is checked
before it is used.

Main statement: `load_settled`.
-/

namespace PtyHost

/-- The value of a variable is a text if its bytes are those of the text. -/
theorem Environment.text?_eq_some_iff {e : Environment} {name s : String} :
    e.text? name = some s ↔ e.get? (Utf8.encode name) = some (Utf8.encode s) := by
  simp only [Environment.text?, Option.bind_eq_some_iff, Utf8.decode?_eq_some_iff,
    exists_eq_right]

namespace Config

open Toml (Value Entries)

/-! ### Overrides -/

/-- Whether an environment overrules a setting with some value. The default shell and what is logged
are overruled by variables that are not empty, the permission helper also by an empty one, and then
there is none. A variable whose bytes are no text does not count. -/
inductive Overrules (environment : Environment) : (k : Setting) → k.kind.Domain → Prop
  | shell {s : String}
      (h : environment.get? (Utf8.encode "TERMHOST_SHELL") = some (Utf8.encode s)) (hne : s ≠ "") :
      Overrules environment .defaultShell (some s)
  | helper {s : String}
      (h : environment.get? (Utf8.encode "TERMHOST_BROKER") = some (Utf8.encode s)) (hne : s ≠ "") :
      Overrules environment .program (some s)
  | noHelper (h : environment.get? (Utf8.encode "TERMHOST_BROKER") = some []) :
      Overrules environment .program (none : Option String)
  | log {s : String}
      (h : environment.get? (Utf8.encode "TERMHOST_LOG") = some (Utf8.encode s)) (hne : s ≠ "") :
      Overrules environment .level s

/-- What a setting is overridden with. -/
def Setting.override? (valueOf : String → Option String) : (k : Setting) → Option k.kind.Domain
  | .defaultShell => ((valueOf shellVariable).bind nonempty?).map some
  | .program => (valueOf brokerVariable).map nonempty?
  | .level => (valueOf logVariable).bind nonempty?
  | _ => none

section Override

variable {valueOf : String → Option String} {c : Config} {environment : Environment}

/-- A text that is not empty is left as it is. -/
theorem nonempty?_eq_some_iff {s t : String} : nonempty? s = some t ↔ s = t ∧ t ≠ "" := by
  unfold nonempty?
  split
  · next h =>
    refine iff_of_false (by simp) ?_
    rintro ⟨rfl, hne⟩
    exact hne h
  · next h =>
    rw [Option.some_inj]
    exact ⟨fun heq ↦ ⟨heq, heq ▸ h⟩, And.left⟩

/-- The overrides leave every other setting as it is. -/
theorem get_override (k : Setting) :
    k.get (c.override valueOf) = (k.override? valueOf).getD (k.get c) := by
  cases k with
  | defaultShell =>
    simp only [Setting.override?, Setting.get, override]
    cases (valueOf shellVariable).bind nonempty? <;> rfl
  | _ => rfl

/-- Overrides that are made twice are as good as made once. -/
theorem override_override : (c.override valueOf).override valueOf = c.override valueOf := by
  refine ext_get fun k ↦ ?_
  rw [get_override, get_override]
  cases k.override? valueOf <;> rfl

/-- A variable that is not empty. -/
theorem text?_bind_nonempty?_eq_some_iff {name s : String} :
    (environment.text? name).bind nonempty? = some s ↔
      environment.get? (Utf8.encode name) = some (Utf8.encode s) ∧ s ≠ "" := by
  simp only [Option.bind_eq_some_iff, Environment.text?_eq_some_iff, nonempty?_eq_some_iff]
  constructor
  · rintro ⟨_, h, rfl, hne⟩
    exact ⟨h, hne⟩
  · rintro ⟨h, hne⟩
    exact ⟨s, h, rfl, hne⟩

/-- The overrides are those of the environment. -/
theorem override?_eq_some_iff {k : Setting} {x : k.kind.Domain} :
    k.override? environment.text? = some x ↔ Overrules environment k x := by
  constructor
  · intro h
    cases k with
    | defaultShell =>
      obtain ⟨s, hs, rfl⟩ := Option.map_eq_some_iff.1 h
      obtain ⟨hs, hne⟩ := text?_bind_nonempty?_eq_some_iff.1 hs
      exact .shell hs hne
    | program =>
      -- Here the empty text is a value too, which is why this variable is not read like the others.
      obtain ⟨s, hs, rfl⟩ := Option.map_eq_some_iff.1 h
      rw [Environment.text?_eq_some_iff] at hs
      by_cases hne : s = ""
      · subst hne
        exact .noHelper hs
      · rw [nonempty?_eq_some_iff.2 ⟨rfl, hne⟩]
        exact .helper hs hne
    | level =>
      obtain ⟨hs, hne⟩ := text?_bind_nonempty?_eq_some_iff.1 h
      exact .log hs hne
    | _ => cases h
  · intro h
    cases h with
    | shell h hne =>
      exact Option.map_eq_some_iff.2 ⟨_, text?_bind_nonempty?_eq_some_iff.2 ⟨h, hne⟩, rfl⟩
    | helper h hne =>
      exact Option.map_eq_some_iff.2 ⟨_, Environment.text?_eq_some_iff.2 h,
        nonempty?_eq_some_iff.2 ⟨rfl, hne⟩⟩
    | noHelper h =>
      exact Option.map_eq_some_iff.2 ⟨"", Environment.text?_eq_some_iff.2 h, rfl⟩
    | log h hne => exact text?_bind_nonempty?_eq_some_iff.2 ⟨h, hne⟩

end Override

/-! ### Precedence -/

/-- Whether a setting has a value: that with which the environment overrules it, else what a table
gives for it, else what it is by default. -/
inductive Settles (environment : Environment) (entries : Entries) (k : Setting) :
    k.kind.Domain → Prop
  | overruled {x : k.kind.Domain} (h : Overrules environment k x) : Settles environment entries k x
  | given {v : Value} {x : k.kind.Domain} (hnot : ∀ y, ¬ Overrules environment k y)
      (hv : k.given? entries = some v) (hx : k.kind.Says v x) : Settles environment entries k x
  | default (hnot : ∀ y, ¬ Overrules environment k y) (hnone : k.given? entries = none) :
      Settles environment entries k (k.get {})

section Settles

variable {environment : Environment} {entries : Entries} {k : Setting}

/-- An environment overrules a setting in one way at most. -/
theorem Overrules.unique {x y : k.kind.Domain} (hx : Overrules environment k x)
    (hy : Overrules environment k y) : x = y :=
  Option.some.inj ((override?_eq_some_iff.2 hx).symm.trans (override?_eq_some_iff.2 hy))

/-- A setting has one value. -/
theorem Settles.unique {x y : k.kind.Domain} (hx : Settles environment entries k x)
    (hy : Settles environment entries k y) : x = y := by
  cases hx with
  | overruled h =>
    cases hy with
    | overruled h' => exact h.unique h'
    | given hnot => exact absurd h (hnot x)
    | default hnot => exact absurd h (hnot x)
  | given hnot hv hsays =>
    cases hy with
    | overruled h' => exact absurd h' (hnot y)
    | given _ hv' hsays' =>
      obtain rfl := Option.some.inj (hv.symm.trans hv')
      exact hsays.unique hsays'
    | default _ hnone => rw [hnone] at hv; cases hv
  | default hnot hnone =>
    cases hy with
    | overruled h' => exact absurd h' (hnot y)
    | given _ hv => rw [hnone] at hv; cases hv
    | default => rfl

/-- The overrides settle what was read from a table. -/
theorem settles_override {c : Config} (h : k.Reads entries (k.get c)) :
    Settles environment entries k (k.get (c.override environment.text?)) := by
  rw [get_override]
  cases hoverride : k.override? environment.text? with
  | some x => exact .overruled (override?_eq_some_iff.1 hoverride)
  | none =>
    have hnot (y : k.kind.Domain) : ¬ Overrules environment k y := by
      rw [← override?_eq_some_iff, hoverride]
      simp
    rw [Option.getD_none]
    unfold Setting.Reads Kind.Reads at h
    split at h
    · next v hv => exact .given hnot hv h
    · next hnone =>
      rw [h]
      exact .default hnot hnone

end Settles

/-! ### Loading -/

/-- Whether a table is that of the configuration file: of the one named, or of the default file, or
it is empty because there is none. -/
inductive Provides (read : Toml.Reader) (fs : FileSystem) (cwd : Place) :
    Option Path → Entries → Prop
  | named {path : Path} {text : String} {entries : Entries}
      (hread : fs.read cwd path = .ok (Utf8.encode text)) (htext : read text = some entries) :
      Provides read fs cwd (some path) entries
  | found {text : String} {entries : Entries} (hexists : fs.exists? cwd defaultFile = true)
      (hread : fs.read cwd defaultFile = .ok (Utf8.encode text))
      (htext : read text = some entries) : Provides read fs cwd none entries
  | absent (hexists : fs.exists? cwd defaultFile = false) : Provides read fs cwd none []

/-- Whether a configuration can be used: its window is not empty, its limits are not zero and its
signal is known. -/
structure IsUsable (c : Config) : Prop where
  rows : 1 ≤ c.session.rows.toNat
  cols : 1 ≤ c.session.cols.toNat
  silence : 1 ≤ c.session.silenceSeconds
  sessions : 1 ≤ c.registry.maxSessions
  signal : ∃ s, Signal.ofName? c.session.terminateSignal = some s

section Load

variable {read : Toml.Reader} {fs : FileSystem} {cwd : Place} {path : Option Path} {c : Config}

/-- The configuration in a file is that in the table of its text. -/
theorem ofFile_eq_ok_iff {path : Path} :
    ofFile read fs cwd path = .ok c ↔ ∃ text entries, fs.read cwd path = .ok (Utf8.encode text) ∧
      read text = some entries ∧ ofEntries? entries = some c := by
  unfold ofFile
  constructor
  · intro h
    split at h
    · cases h
    next contents hread =>
    split at h
    · cases h
    next text htext =>
    split at h
    · cases h
    next found hfound =>
    obtain rfl := Except.ok.inj h
    obtain ⟨entries, hentries, hc⟩ := Option.bind_eq_some_iff.1 hfound
    rw [Utf8.decode?_eq_some_iff] at htext
    exact ⟨text, entries, htext ▸ hread, hentries, hc⟩
  · rintro ⟨text, entries, hread, hentries, hc⟩
    have htoml : (read text).bind ofEntries? = some c :=
      Option.bind_eq_some_iff.2 ⟨entries, hentries, hc⟩
    rw [hread]
    simp only [Utf8.decode?_eq_some_iff.2 rfl, htoml]

/-- The configuration before overrides is that in the table of the configuration file. -/
theorem base_eq_ok_iff :
    base read fs cwd path = .ok c ↔
      ∃ entries, Provides read fs cwd path entries ∧ ofEntries? entries = some c := by
  cases path with
  | some path =>
    rw [base, ofFile_eq_ok_iff]
    constructor
    · rintro ⟨text, entries, hread, htext, hc⟩
      exact ⟨entries, .named hread htext, hc⟩
    · rintro ⟨entries, ⟨hread, htext⟩, hc⟩
      exact ⟨_, entries, hread, htext, hc⟩
  | none =>
    rw [base]
    cases hexists : fs.exists? cwd defaultFile with
    | true =>
      rw [if_pos rfl, ofFile_eq_ok_iff]
      constructor
      · rintro ⟨text, entries, hread, htext, hc⟩
        exact ⟨entries, .found hexists hread htext, hc⟩
      · rintro ⟨entries, hprovides, hc⟩
        cases hprovides with
        | found _ hread htext => exact ⟨_, entries, hread, htext, hc⟩
        | absent hnot => rw [hexists] at hnot; cases hnot
    | false =>
      rw [if_neg Bool.false_ne_true, Except.ok.injEq]
      constructor
      · rintro rfl
        exact ⟨[], .absent hexists, rfl⟩
      · rintro ⟨entries, hprovides, hc⟩
        cases hprovides with
        | found hfound => rw [hexists] at hfound; cases hfound
        | absent => exact Option.some.inj hc

/-- The check lets the configurations through that can be used. -/
theorem validate_eq_none_iff_isUsable : c.validate = none ↔ c.IsUsable := by
  have hsignal : (∃ s, c.session.signal = .ok s) ↔
      ∃ s, Signal.ofName? c.session.terminateSignal = some s := by
    unfold SessionSection.signal signal
    cases Signal.ofName? c.session.terminateSignal <;> simp
  have hword (w : UInt16) : w ≠ 0 ↔ 1 ≤ w.toNat := by
    rw [Nat.one_le_iff_ne_zero, ne_eq, ne_eq, ← UInt16.toNat_inj]
    rfl
  rw [validate_eq_none_iff, hsignal, hword, hword, ← Nat.one_le_iff_ne_zero,
    ← Nat.one_le_iff_ne_zero]
  constructor
  · rintro ⟨hrows, hcols, hsilence, hsessions, hknown⟩
    exact ⟨hrows, hcols, hsilence, hsessions, hknown⟩
  · rintro ⟨hrows, hcols, hsilence, hsessions, hknown⟩
    exact ⟨hrows, hcols, hsilence, hsessions, hknown⟩

/-- What the check does not let through is invalid. -/
theorem validate_invalid {e : ConfigError} (h : c.validate = some e) :
    ∃ reason, e = .invalid reason := by
  unfold validate at h
  split at h
  · exact ⟨_, (Option.some.inj h).symm⟩
  split at h
  · exact ⟨_, (Option.some.inj h).symm⟩
  split at h
  · exact ⟨_, (Option.some.inj h).symm⟩
  split at h
  · cases h
  · next hsignal =>
    obtain rfl := Option.some.inj h
    unfold SessionSection.signal signal at hsignal
    split at hsignal
    · cases hsignal
    · exact ⟨_, (Except.error.inj hsignal).symm⟩

/-- What is read is overridden and checked. -/
theorem load_of_base {environment : Environment} (h : base read fs cwd path = .ok c) :
    load read fs cwd environment path = validated (c.override environment.text?) := by
  unfold load
  rw [h]
  rfl

/-- A configuration is loaded if it is what was read, overridden, and can be used. -/
theorem load_eq_ok_iff {environment : Environment} :
    load read fs cwd environment path = .ok c ↔
      ∃ found, base read fs cwd path = .ok found ∧ found.override environment.text? = c ∧
        c.IsUsable := by
  cases hbase : base read fs cwd path with
  | error e =>
    unfold load
    rw [hbase]
    refine iff_of_false (fun h ↦ by cases h) ?_
    rintro ⟨_, h, -⟩
    cases h
  | ok found =>
    rw [load_of_base hbase, validated_eq_ok_iff, validate_eq_none_iff_isUsable]
    simp only [Except.ok.injEq, exists_eq_left']

/-- What a table gives is loaded, overridden, if it can be used then. -/
theorem load_of_provides {environment : Environment} {entries : Entries}
    (hprovides : Provides read fs cwd path entries) (hfound : ofEntries? entries = some c)
    (husable : (c.override environment.text?).IsUsable) :
    load read fs cwd environment path = .ok (c.override environment.text?) :=
  load_eq_ok_iff.2 ⟨c, base_eq_ok_iff.2 ⟨entries, hprovides, hfound⟩, rfl, husable⟩

end Load

/-- Where the settings of a configuration have their values from. However documents are read,
whatever stands in a table that a configuration can be read from, and whichever of its sections and
keys are missing, one configuration has for each setting the value that the environment, the table
or the default gives, in this order. It is loaded if it can be used, and is invalid otherwise. Each
configuration that is loaded has come about so, and sessions can be made with it. Overriding once
more changes nothing. -/
theorem load_settled (read : Toml.Reader) (fs : FileSystem) (cwd : Place)
    (environment : Environment) (path : Option Path) :
    (∀ entries found, Provides read fs cwd path entries → ofEntries? entries = some found →
      ∃ c : Config, (∀ k : Setting, Settles environment entries k (k.get c)) ∧
        (∀ d : Config, (∀ k : Setting, Settles environment entries k (k.get d)) → d = c) ∧
        (c.IsUsable ∧ load read fs cwd environment path = .ok c ∨
          ¬ c.IsUsable ∧ ∃ reason, load read fs cwd environment path = .error (.invalid reason))) ∧
    (∀ c, load read fs cwd environment path = .ok c →
      (∃ entries, Provides read fs cwd path entries ∧
        ∀ k : Setting, Settles environment entries k (k.get c)) ∧
      c.IsUsable ∧ ∀ home, ∃ options, SessionOptions.ofConfig home c.session = .ok options) ∧
    ∀ (valueOf : String → Option String) (c : Config),
      (c.override valueOf).override valueOf = c.override valueOf := by
  refine ⟨?_, ?_, fun _ _ ↦ override_override⟩
  · intro entries found hprovides hfound
    have hbase := base_eq_ok_iff.2 ⟨entries, hprovides, hfound⟩
    have hsettled (k : Setting) :
        Settles environment entries k (k.get (found.override environment.text?)) :=
      settles_override ((ofEntries?_eq_some_iff.1 hfound).2 k)
    refine ⟨_, hsettled, fun d hd ↦ ext_get fun k ↦ (hd k).unique (hsettled k), ?_⟩
    by_cases husable : (found.override environment.text?).IsUsable
    · exact .inl ⟨husable, load_of_provides hprovides hfound husable⟩
    · refine .inr ⟨husable, ?_⟩
      rw [load_of_base hbase]
      unfold validated
      split
      · next hvalid => exact absurd (validate_eq_none_iff_isUsable.1 hvalid) husable
      · next e hinvalid =>
        obtain ⟨reason, rfl⟩ := validate_invalid hinvalid
        exact ⟨reason, rfl⟩
  · intro c h
    obtain ⟨found, hbase, rfl, husable⟩ := load_eq_ok_iff.1 h
    obtain ⟨entries, hprovides, hfound⟩ := base_eq_ok_iff.1 hbase
    refine ⟨⟨entries, hprovides, fun k ↦ ?_⟩, husable, fun home ↦ ?_⟩
    · exact settles_override ((ofEntries?_eq_some_iff.1 hfound).2 k)
    · obtain ⟨options, hoptions, -⟩ :=
        Session.ofConfig_of_validate home (validate_eq_none_iff_isUsable.2 husable)
      exact ⟨options, hoptions⟩

/-- A tree with a configuration file in its root. -/
def treeWith (text : String) : FileSystem :=
  ({} : FileSystem).add [Bytes.ofAscii "termhost.toml"] (.file (Utf8.encode text) false)

/-- A file gives the rows and names a helper, a variable disables the helper, and the columns are
left out. -/
theorem load_settled_partly :
    ∃ c, load Toml.read (treeWith "session.rows=50\nbroker.program=\"/f\"") []
        ⟨[(Utf8.encode "TERMHOST_BROKER", [])]⟩ none = .ok c ∧
      c.session.rows = 50 ∧ c.session.cols = 80 ∧ c.broker.program = none ∧
      ∃ options, SessionOptions.ofConfig none c.session = .ok options := by
  have hprovides : Provides Toml.read (treeWith "session.rows=50\nbroker.program=\"/f\"") [] none
      [("session", .table .dotted [("rows", .integer 50)]),
        ("broker", .table .dotted [("program", .string "/f")])] :=
    .found (by decide) (by rfl) (by rfl)
  have hfound : ofEntries? [("session", .table .dotted [("rows", .integer 50)]),
      ("broker", .table .dotted [("program", .string "/f")])] =
        some { session := { rows := 50 }, broker := ⟨some "/f"⟩ } := by rfl
  obtain ⟨hsettled, hloaded, -⟩ := load_settled Toml.read
    (treeWith "session.rows=50\nbroker.program=\"/f\"") []
    ⟨[(Utf8.encode "TERMHOST_BROKER", [])]⟩ none
  obtain ⟨c, hc, -, hcases⟩ := hsettled _ _ hprovides hfound
  have hrows : c.session.rows = 50 := (hc .rows).unique (.given (fun _ h ↦ by cases h) rfl rfl)
  have hcols : c.session.cols = 80 := (hc .cols).unique (.default (fun _ h ↦ by cases h) rfl)
  have hprogram : c.broker.program = none := (hc .program).unique (.overruled (.noHelper rfl))
  have hsilence : c.session.silenceSeconds = 10 :=
    (hc .silenceSeconds).unique (.default (fun _ h ↦ by cases h) rfl)
  have hmax : c.registry.maxSessions = 20 :=
    (hc .maxSessions).unique (.default (fun _ h ↦ by cases h) rfl)
  have hsignal : c.session.terminateSignal = "SIGHUP" :=
    (hc .terminateSignal).unique (.default (fun _ h ↦ by cases h) rfl)
  have husable : c.IsUsable := ⟨hrows ▸ by decide, hcols ▸ by decide, hsilence ▸ by decide,
    hmax ▸ by decide, .hup, hsignal ▸ by decide⟩
  have hok := (hcases.resolve_right fun h ↦ h.1 husable).2
  exact ⟨c, hok, hrows, hcols, hprogram, (hloaded c hok).2.2 none⟩

/-- A variable that is set to bytes that are no text does not count, and a section that is an array
gives its settings by their places, without a key. -/
theorem load_without_text_or_key :
    (∃ environment c, environment.get? (Utf8.encode "TERMHOST_BROKER") = some [0x2F, 0x62, 0xC3] ∧
      load Toml.read (treeWith "[broker]\nprogram = \"/f/b\"") [] environment none = .ok c ∧
      c.broker.program = some "/f/b" ∧ Utf8.encode "/f/b" ≠ [0x2F, 0x62, 0xC3]) ∧
    ∃ entries c, Provides Toml.read (treeWith "registry = [5]\n") [] none entries ∧
      (∀ origin inner, entries.lookup "registry" = some (.table origin inner) →
        inner.lookup "max_sessions" = none) ∧
      load Toml.read (treeWith "registry = [5]\n") [] {} none = .ok c ∧
      c.registry.maxSessions ≠ ({} : Config).registry.maxSessions := by
  have hhelper : Provides Toml.read (treeWith "[broker]\nprogram = \"/f/b\"") [] none
      [("broker", .table .header [("program", .string "/f/b")])] :=
    .found (by decide) (by rfl) (by rfl)
  have hlimit : Provides Toml.read (treeWith "registry = [5]\n") [] none
      [("registry", .array false [.integer 5])] := .found (by decide) (by rfl) (by rfl)
  refine ⟨⟨⟨[(Utf8.encode "TERMHOST_BROKER", [0x2F, 0x62, 0xC3])]⟩, _, rfl,
    load_of_provides hhelper rfl ?_, rfl, by decide⟩, _, _, hlimit, ?_,
    load_of_provides hlimit rfl ?_, by decide⟩
  · exact ⟨by decide, by decide, by decide, by decide, .hup, by decide⟩
  · intro origin inner h
    cases h
  · exact ⟨by decide, by decide, by decide, by decide, .hup, by decide⟩

end Config

end PtyHost
