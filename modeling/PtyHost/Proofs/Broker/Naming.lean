import Mathlib.Data.List.Basic
import PtyHost.Broker.Slave
import PtyHost.Proofs.Path.Components
import PtyHost.Proofs.Text.Strict

/-!
# Which devices a name leads to

The helper changes the file that a name leads to, so the names that it accepts are its whole
authority. A name is accepted by where it leads and not by its spelling: repeated slashes, dots and
what trails do not count, and two dots lead nowhere.

Main statements: `unix98Slave_accepts` (a slave is a name directly in `/dev/pts`, returned as it was
given) and `legacySlave_maps` (a master is a name `pty…` directly in `/dev`, whose slave is the name
`tty…` there, so no two masters share a slave).
-/

namespace PtyHost.Broker

/-- The names on the way to the devices. -/
def deviceNames : List Bytes := [Bytes.ofAscii "dev"]

/-- The names on the way to the slaves. -/
def slaveNames : List Bytes := [Bytes.ofAscii "dev", Bytes.ofAscii "pts"]

section Accepted

variable {name slave master : Path} {leaf : Bytes} {suffix : String} {e : Error}

/-- The one name below the directory of devices. -/
theorem single?_below?_deviceDir :
    (name.below? deviceDir).bind Path.single? = some leaf ↔ name.IsIn deviceNames leaf :=
  Path.single?_below?_iff_isIn (by decide) (by decide)

/-- The one name below the directory of slaves. -/
theorem single?_below?_slaveDir :
    (name.below? slaveDir).bind Path.single? = some leaf ↔ name.IsIn slaveNames leaf :=
  Path.single?_below?_iff_isIn (by decide) (by decide)

/-! ### Slaves by their own names -/

/-- A slave is a name directly in the directory of slaves, returned as it was given. -/
theorem unix98Slave_eq_ok_iff :
    unix98Slave name = .ok slave ↔ slave = name ∧ ∃ leaf, name.IsIn slaveNames leaf := by
  unfold unix98Slave
  split
  · next leaf h =>
    rw [Except.ok.injEq]
    exact ⟨fun heq ↦ ⟨heq.symm, leaf, single?_below?_slaveDir.1 h⟩, fun hslave ↦ hslave.1.symm⟩
  · next h =>
    refine iff_of_false (by simp) ?_
    rintro ⟨-, leaf, hleaf⟩
    rw [single?_below?_slaveDir.2 hleaf] at h
    cases h

/-- Any other name is strange. -/
theorem unix98Slave_eq_error_iff :
    unix98Slave name = .error e ↔ e = strangeName name ∧ ¬ ∃ leaf, name.IsIn slaveNames leaf := by
  have hok : unix98Slave name = .ok name ↔ ∃ leaf, name.IsIn slaveNames leaf := by
    rw [unix98Slave_eq_ok_iff, and_iff_right rfl]
  rw [← hok]
  unfold unix98Slave
  split <;> simp [eq_comm]

/-- Two dots are nowhere in a name that is accepted. -/
theorem dotDot_notMem_of_unix98Slave (h : unix98Slave name = .ok slave) :
    Path.dotDot ∉ name.bytes.fields Path.slash := by
  obtain ⟨-, leaf, hleaf⟩ := unix98Slave_eq_ok_iff.1 h
  exact hleaf.dotDot_notMem (by decide)

/-- What goes on behind an accepted name is accepted as long as it says nothing. -/
theorem unix98Slave_join_iff {more : Path} (h : unix98Slave name = .ok slave)
    (hmore : more.isAbsolute = false) :
    (∃ further, unix98Slave (name.join more) = .ok further) ↔ more.names = [] := by
  obtain ⟨-, leaf, habs, hnames, hinner⟩ := unix98Slave_eq_ok_iff.1 h
  have hne : name.bytes ≠ [] := by
    intro hnil
    rw [Path.isAbsolute, hnil] at habs
    cases habs
  have hjoin : (name.join more).names = slaveNames ++ [leaf] ++ more.names := by
    rw [Path.names_join hne hmore, hnames]
  simp only [unix98Slave_eq_ok_iff]
  constructor
  · -- An accepted name has three names, and three are there before anything goes on.
    rintro ⟨_, -, further, hfurther⟩
    have hlength := congrArg List.length (hjoin.symm.trans hfurther.names)
    simpa using hlength
  · intro hnone
    refine ⟨_, rfl, leaf, (Path.isAbsolute_join hne hmore).trans habs, ?_, hinner⟩
    rw [hjoin, hnone, List.append_nil]

/-! ### Slaves by the names of their masters -/

/-- The text behind a stem. -/
theorem isPrefixOf?_toList_iff {stem text : String} {ending : List Char} :
    stem.toList.isPrefixOf? text.toList = some ending ↔ text = stem ++ String.ofList ending := by
  rw [List.isPrefixOf?_eq_some_iff_append_eq, ← String.toList_inj, String.toList_append,
    String.toList_ofList, eq_comm]

/-- The text that the one name below the directory of devices is. -/
theorem leaf?_eq_some_iff {text : String} :
    ((master.below? deviceDir).bind Path.single?).bind Utf8.decode? = some text ↔
      master.IsIn deviceNames (Utf8.encode text) := by
  rw [Option.bind_eq_some_iff]
  simp only [single?_below?_deviceDir, Utf8.decode?_eq_some_iff]
  constructor
  · rintro ⟨_, hmaster, rfl⟩
    exact hmaster
  · exact fun hmaster ↦ ⟨_, hmaster, rfl⟩

/-- The slave whose name goes on with some text behind the stem. -/
def slaveOf (suffix : String) : Path := deviceDir.join (.ofText (slaveStem ++ suffix))

/-- A master is a name in the directory of devices that goes on behind the stem, and its slave goes
on in the same way. -/
theorem legacySlave_eq_ok_iff :
    legacySlave master = .ok slave ↔ ∃ suffix : String, suffix ≠ "" ∧
      master.IsIn deviceNames (Utf8.encode (masterStem ++ suffix)) ∧ slave = slaveOf suffix := by
  unfold legacySlave
  constructor
  · intro h
    split at h
    · cases h
    next text htext =>
    split at h
    · next c ending hending =>
      rw [isPrefixOf?_toList_iff] at hending
      subst hending
      exact ⟨String.ofList (c :: ending), by simp, leaf?_eq_some_iff.1 htext,
        (Except.ok.inj h).symm⟩
    · cases h
  · rintro ⟨suffix, hne, hmaster, rfl⟩
    rw [leaf?_eq_some_iff.2 hmaster]
    cases hsuffix : suffix.toList with
    | nil => exact absurd (String.toList_eq_nil_iff.1 hsuffix) hne
    | cons c ending =>
      have hlist : String.ofList (c :: ending) = suffix := by rw [← hsuffix, String.ofList_toList]
      have hending : masterStem.toList.isPrefixOf? (masterStem ++ suffix).toList =
          some (c :: ending) := by rw [isPrefixOf?_toList_iff, hlist]
      simp only [hending, hlist]
      rfl

/-- Any other name is strange. -/
theorem legacySlave_eq_error_iff :
    legacySlave master = .error e ↔ e = strangeName master ∧
      ¬ ∃ suffix : String, suffix ≠ "" ∧
        master.IsIn deviceNames (Utf8.encode (masterStem ++ suffix)) := by
  have hok : (∃ slave, legacySlave master = .ok slave) ↔ ∃ suffix : String, suffix ≠ "" ∧
      master.IsIn deviceNames (Utf8.encode (masterStem ++ suffix)) := by
    simp only [legacySlave_eq_ok_iff]
    constructor
    · rintro ⟨_, suffix, hne, hmaster, -⟩
      exact ⟨suffix, hne, hmaster⟩
    · rintro ⟨suffix, hne, hmaster⟩
      exact ⟨_, suffix, hne, hmaster, rfl⟩
  rw [← hok]
  unfold legacySlave
  split
  · simp [eq_comm]
  split <;> simp [eq_comm]

/-- The bytes of a slave. -/
theorem bytes_slaveOf (suffix : String) :
    (slaveOf suffix).bytes = Bytes.ofAscii "/dev/tty" ++ Utf8.encode suffix := by
  have hrelative (s : Bytes) : Path.isAbsolute ⟨Utf8.encode slaveStem ++ s⟩ = false := rfl
  rw [slaveOf, Path.join, Path.ofText, Utf8.encode_append, if_neg (by simp [hrelative]),
    if_neg (by decide)]
  rfl

/-- What goes on behind the stem of a master holds no slash. -/
theorem slash_notMem_suffix (h : master.IsIn deviceNames (Utf8.encode (masterStem ++ suffix))) :
    Path.slash ∉ Utf8.encode suffix := by
  intro hmem
  refine h.slash_notMem ?_
  rw [Utf8.encode_append]
  exact List.mem_append_right _ hmem

/-- A slave is a name in the directory of devices. -/
theorem isIn_slaveOf (h : Path.slash ∉ Utf8.encode suffix) :
    (slaveOf suffix).IsIn deviceNames (Utf8.encode (slaveStem ++ suffix)) := by
  have hleaf : Utf8.encode (slaveStem ++ suffix) = Bytes.ofAscii "tty" ++ Utf8.encode suffix :=
    Utf8.encode_append ..
  have hfields : (slaveOf suffix).bytes.fields Path.slash =
      [[], Bytes.ofAscii "dev", Bytes.ofAscii "tty" ++ Utf8.encode suffix] := by
    rw [bytes_slaveOf, show Bytes.ofAscii "/dev/tty" = Bytes.ofAscii "/dev" ++
      Path.slash :: Bytes.ofAscii "tty" from rfl, List.append_assoc, List.cons_append,
      Bytes.fields_append_cons, Bytes.fields_append_of_notMem (by decide),
      Bytes.fields_of_notMem h]
    rfl
  refine ⟨Path.isAbsolute_iff.2 ⟨_, by simp, hfields⟩, ?_, ?_⟩
  · rw [Path.names, hfields, hleaf]
    rfl
  · rw [hleaf]
    intro heq
    cases List.cons.inj heq |>.1

/-- Slaves whose names go on in the same way are the same. -/
theorem slaveOf_inj {other : String} : slaveOf suffix = slaveOf other ↔ suffix = other := by
  refine ⟨fun h ↦ ?_, congrArg slaveOf⟩
  have hbytes := congrArg Path.bytes h
  rw [bytes_slaveOf, bytes_slaveOf] at hbytes
  exact Utf8.encode_injective (List.append_cancel_left hbytes)

/-- Masters whose names go on in the same way lead to the same name. -/
theorem getLast?_names_eq_iff {other : Path} {suffix' : String}
    (h : master.IsIn deviceNames (Utf8.encode (masterStem ++ suffix)))
    (h' : other.IsIn deviceNames (Utf8.encode (masterStem ++ suffix'))) :
    master.names.getLast? = other.names.getLast? ↔ suffix = suffix' := by
  rw [h.names, h'.names, List.getLast?_append, List.getLast?_append]
  refine ⟨fun heq ↦ ?_, fun heq ↦ heq ▸ rfl⟩
  have htext := Utf8.encode_injective (Option.some.inj heq)
  rw [← String.toList_inj, String.toList_append, String.toList_append] at htext
  exact String.toList_inj.1 (List.append_cancel_left htext)

/-- A name in the directory of devices is not one in the directory of slaves. -/
theorem unix98Slave_of_isIn_deviceNames (h : name.IsIn deviceNames leaf) :
    unix98Slave name = .error (strangeName name) := by
  refine unix98Slave_eq_error_iff.2 ⟨rfl, ?_⟩
  rintro ⟨other, hother⟩
  exact absurd (congrArg List.length (h.names.symm.trans hother.names))
    (by simp [deviceNames, slaveNames])

/-- A slave is not the name of a master. -/
theorem legacySlave_slaveOf (h : Path.slash ∉ Utf8.encode suffix) :
    legacySlave (slaveOf suffix) = .error (strangeName (slaveOf suffix)) := by
  refine legacySlave_eq_error_iff.2 ⟨rfl, ?_⟩
  rintro ⟨other, -, hother⟩
  have hleaf := (isIn_slaveOf h).leaf_eq hother
  rw [Utf8.encode_append, Utf8.encode_append] at hleaf
  cases (List.cons.inj hleaf).1

end Accepted

/-! ### Which names are accepted -/

/-- A slave is accepted by its own name if this is absolute and, but for empty segments and dots,
leads through `dev` and `pts` to one more segment, which is not two dots. It is returned as it was
given, and any other name is strange. So two dots are nowhere in an accepted name, and what goes on
behind one is accepted only if it holds no segments but empty ones and dots. -/
theorem unix98Slave_accepts (name : Path) :
    (∀ slave, unix98Slave name = .ok slave ↔
      slave = name ∧ ∃ leaf, name.IsIn [Bytes.ofAscii "dev", Bytes.ofAscii "pts"] leaf) ∧
    (∀ e, unix98Slave name = .error e ↔
      e = strangeName name ∧ ¬ ∃ leaf, name.IsIn [Bytes.ofAscii "dev", Bytes.ofAscii "pts"] leaf) ∧
    ∀ slave, unix98Slave name = .ok slave →
      Path.dotDot ∉ name.bytes.fields Path.slash ∧
      ∀ more : Path, more.isAbsolute = false →
        ((∃ further, unix98Slave (name.join more) = .ok further) ↔ more.names = []) :=
  ⟨fun _ ↦ unix98Slave_eq_ok_iff, fun _ ↦ unix98Slave_eq_error_iff, fun _ h ↦
    ⟨dotDot_notMem_of_unix98Slave h, fun _ hmore ↦ unix98Slave_join_iff h hmore⟩⟩

/-- A name that is full of slashes and dots is accepted, but not what is below it. -/
theorem unix98Slave_accepts_spelled :
    unix98Slave (.ofAscii "//dev/./pts//3/.") = .ok (.ofAscii "//dev/./pts//3/.") ∧
    ¬ ∃ further, unix98Slave (.ofAscii "//dev/./pts//3/./..") = .ok further := by
  have hname : Path.IsIn (.ofAscii "//dev/./pts//3/.") [Bytes.ofAscii "dev", Bytes.ofAscii "pts"]
      (Bytes.ofAscii "3") := ⟨by decide, by decide, by decide⟩
  obtain ⟨hok, -, hmore⟩ := unix98Slave_accepts (.ofAscii "//dev/./pts//3/.")
  have haccepted := (hok _).2 ⟨rfl, _, hname⟩
  have hbelow := (hmore _ haccepted).2 (.ofAscii "..") (by decide)
  exact ⟨haccepted, fun h ↦ absurd (hbelow.1 h) (by decide)⟩

/-- A master is accepted if its path is absolute and, but for empty segments and dots, leads through
`dev` to one more segment, which is the text `pty` with something behind it. Its slave is the name
in `/dev` that has `tty` in place of this. Any other name is strange, and so are all slaves; masters
share a slave only if they lead to the same name, and none is a slave by its own name. -/
theorem legacySlave_maps (master : Path) :
    (∀ slave, legacySlave master = .ok slave ↔ ∃ suffix : String, suffix ≠ "" ∧
      master.IsIn [Bytes.ofAscii "dev"] (Utf8.encode ("pty" ++ suffix)) ∧
      slave = ⟨Bytes.ofAscii "/dev/tty" ++ Utf8.encode suffix⟩) ∧
    (∀ e, legacySlave master = .error e ↔ e = strangeName master ∧
      ¬ ∃ suffix : String, suffix ≠ "" ∧
        master.IsIn [Bytes.ofAscii "dev"] (Utf8.encode ("pty" ++ suffix))) ∧
    ∀ slave, legacySlave master = .ok slave →
      (∃ leaf, slave.IsIn [Bytes.ofAscii "dev"] leaf) ∧
      (∀ other slave', legacySlave other = .ok slave' →
        (slave = slave' ↔ master.names.getLast? = other.names.getLast?)) ∧
      unix98Slave master = .error (strangeName master) ∧
      legacySlave slave = .error (strangeName slave) ∧
      unix98Slave slave = .error (strangeName slave) := by
  refine ⟨fun slave ↦ ?_, fun _ ↦ legacySlave_eq_error_iff, ?_⟩
  · simp only [← bytes_slaveOf]
    exact legacySlave_eq_ok_iff
  · intro slave h
    obtain ⟨suffix, -, hmaster, rfl⟩ := legacySlave_eq_ok_iff.1 h
    have hsuffix := slash_notMem_suffix hmaster
    have hslave := isIn_slaveOf hsuffix
    refine ⟨⟨_, hslave⟩, ?_, unix98Slave_of_isIn_deviceNames hmaster,
      legacySlave_slaveOf hsuffix, unix98Slave_of_isIn_deviceNames hslave⟩
    intro other slave' h'
    obtain ⟨suffix', -, hother, rfl⟩ := legacySlave_eq_ok_iff.1 h'
    rw [slaveOf_inj, getLast?_names_eq_iff hmaster hother]

/-- A master whose name goes on beyond ASCII, full of slashes and dots, has the slave of that
name. -/
theorem legacySlave_maps_spelled :
    legacySlave (.ofText "/./dev//ptyé/") = .ok (.ofText "/dev/ttyé") ∧
    legacySlave (.ofText "/dev/ttyé") = .error (strangeName (.ofText "/dev/ttyé")) := by
  have hmaster : Path.IsIn (.ofText "/./dev//ptyé/") [Bytes.ofAscii "dev"]
      (Utf8.encode ("pty" ++ "é")) := ⟨by decide, by decide, by decide⟩
  obtain ⟨hok, -, hslave⟩ := legacySlave_maps (.ofText "/./dev//ptyé/")
  have haccepted := (hok (.ofText "/dev/ttyé")).2 ⟨"é", by decide, hmaster, by decide⟩
  exact ⟨haccepted, (hslave _ haccepted).2.2.2.1⟩

end PtyHost.Broker
