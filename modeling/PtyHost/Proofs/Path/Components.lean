import PtyHost.Path

/-!
# The components of a path

A path is cut at its slashes into fields. Empty fields and dots say nothing, however many there are
and wherever they stand, but for the slash or the dot that a path starts with; the other fields are
the names of the path. What is left of a path behind some of its components is a path again, and
reading it from its front gives just the components that were left.

Main statements: `below?_iff` (what is left of a path below a directory), `components_eq_iff` (which
paths have given names below the root) and `components_join` (how a path goes on).
-/

namespace PtyHost

/-! ### Fields -/

namespace Bytes

variable {sep : UInt8}

/-- Bytes without a separator are one field. -/
theorem fields_of_notMem {s : Bytes} (h : sep ∉ s) : fields sep s = [s] := by
  have hfields := fields_append_of_notMem (t := []) h
  rwa [List.append_nil, fields, List.modifyHead_cons, List.append_nil] at hfields

/-- A separator stands between the fields before it and those behind it. -/
theorem fields_append_cons (s t : Bytes) :
    fields sep (s ++ sep :: t) = fields sep s ++ fields sep t := by
  induction s with
  | nil => simp [fields]
  | cons b s ih =>
    rw [List.cons_append, fields, fields, ih]
    split
    · rfl
    · cases h : fields sep s with
      | nil => exact absurd h (fields_ne_nil sep s)
      | cons f fs => rfl

/-- Fields that are joined are the fields of the whole. -/
theorem fields_joined {fs : List Bytes} (hne : fs ≠ []) (h : ∀ f ∈ fs, sep ∉ f) :
    fields sep (joined sep fs) = fs := by
  fun_induction joined sep fs with
  | case1 => exact absurd rfl hne
  | case2 f => exact fields_of_notMem (h f (List.mem_singleton_self f))
  | case3 f g rest ih =>
    rw [List.forall_mem_cons] at h
    rw [fields_append_cons, fields_of_notMem h.1, ih (by simp) h.2]
    rfl

end Bytes

/-- What is dropped from the front ends before a member that is kept. -/
theorem dropWhile_append_cons {α : Type} {p : α → Bool} {a : α} (h : p a = false) (u v : List α) :
    (u ++ a :: v).dropWhile p = u.dropWhile p ++ a :: v := by
  rw [List.dropWhile_append, List.dropWhile_cons_of_neg (by simp [h])]
  split
  · next hu => rw [List.isEmpty_iff.1 hu, List.nil_append]
  · rfl

/-- What is dropped from the front is not among the others. -/
theorem filter_dropWhile {α : Type} (p : α → Bool) (l : List α) :
    (l.dropWhile p).filter (!p ·) = l.filter (!p ·) := by
  induction l with
  | nil => rfl
  | cons a l ih =>
    rw [List.dropWhile_cons]
    split
    · next h => rw [ih, List.filter_cons_of_neg (by simp [h])]
    · rfl

namespace Path

/-! ### Names -/

/-- The names among some fields: all but the empty ones and the dots. -/
def namesIn (fields : List Bytes) : List Bytes := fields.filter fun f ↦ f ≠ [] ∧ f ≠ dot

/-- The names of a path, which are its segments other than dots. -/
def names (p : Path) : List Bytes := namesIn (p.bytes.fields slash)

/-- A field is a name unless it is idle. -/
theorem namesIn_eq (fields : List Bytes) : namesIn fields = fields.filter (!isIdle ·) := by
  simp [namesIn, isIdle]

@[simp] theorem namesIn_append (fields more : List Bytes) :
    namesIn (fields ++ more) = namesIn fields ++ namesIn more := List.filter_append ..

/-- Idle fields in front are no names. -/
theorem namesIn_dropWhile (fields : List Bytes) :
    namesIn (fields.dropWhile isIdle) = namesIn fields := by
  rw [namesIn_eq, namesIn_eq, filter_dropWhile]

/-- Idle fields at the end are no names. -/
theorem namesIn_withoutIdleEnd (fields : List Bytes) :
    namesIn (withoutIdleEnd fields) = namesIn fields := by
  rw [namesIn_eq, namesIn_eq, withoutIdleEnd, List.filter_reverse, filter_dropWhile,
    List.filter_reverse, List.reverse_reverse]

/-- The first field behind the idle ones in front is a name. -/
theorem isIdle_of_dropWhile {fields : List Bytes} {name : Bytes} {rest : List Bytes}
    (h : fields.dropWhile isIdle = name :: rest) : isIdle name = false := by
  have hhead := List.head?_dropWhile_not isIdle fields
  rwa [h] at hhead

/-- A name in front stays when the end is taken away. -/
theorem withoutIdleEnd_cons {name : Bytes} (h : isIdle name = false) (fields : List Bytes) :
    withoutIdleEnd (name :: fields) = name :: withoutIdleEnd fields := by
  rw [withoutIdleEnd, List.reverse_cons, dropWhile_append_cons h, List.reverse_append]
  rfl

/-- The steps of the nonempty fields are their names. -/
theorem stepsOf_filter (fields : List Bytes) :
    stepsOf (fields.filter (· ≠ [])) = (namesIn fields).map stepOf := by
  induction fields with
  | nil => rfl
  | cons f fields ih =>
    by_cases hnil : f = []
    · subst hnil
      exact ih
    rw [List.filter_cons_of_pos (by simpa using hnil)]
    by_cases hdot : f = dot
    · subst hdot
      exact ih
    have hname : namesIn (f :: fields) = f :: namesIn fields :=
      List.filter_cons_of_pos (by simp [hnil, hdot])
    have hstep : (if f = dot then none else if f = dotDot then some Component.parent
        else some (.normal f)) = some (stepOf f) := by
      rw [if_neg hdot, stepOf]
      split <;> rfl
    rw [hname, List.map_cons, ← ih, stepsOf, stepsOf, List.filterMap_cons, hstep]

/-! ### Reading a path from its front -/

/-- A path is absolute if its first field is empty and not its last. -/
theorem isAbsolute_iff {p : Path} :
    p.isAbsolute = true ↔ ∃ rest, rest ≠ [] ∧ p.bytes.fields slash = [] :: rest := by
  obtain ⟨bytes⟩ := p
  cases bytes with
  | nil => simp [isAbsolute, Bytes.fields]
  | cons b bytes =>
    by_cases hb : b = slash
    · simp [isAbsolute, Bytes.fields, hb, Bytes.fields_ne_nil]
    · cases hfields : Bytes.fields slash bytes with
      | nil => exact absurd hfields (Bytes.fields_ne_nil _ _)
      | cons f fs => simp [isAbsolute, Bytes.fields, hb, hfields]

/-- A path whose first field is not empty is not absolute. -/
theorem isAbsolute_eq_false {p : Path} {f : Bytes} {rest : List Bytes}
    (h : p.bytes.fields slash = f :: rest) (hf : f ≠ []) : p.isAbsolute = false := by
  rw [← Bool.not_eq_true, isAbsolute_iff]
  rintro ⟨_, -, heq⟩
  rw [h] at heq
  exact hf (List.cons.inj heq).1

namespace Cursor

variable {c rest : Cursor} {p : Path}

/-- The steps that are left. -/
def steps (c : Cursor) : List Component := c.start.toList ++ (namesIn c.fields).map stepOf

/-- In front of a path that starts with neither a slash nor a dot all its fields are left. -/
theorem before_of_fields {f : Bytes} {fields : List Bytes}
    (h : p.bytes.fields slash = f :: fields) (hf : f ≠ []) :
    before p = if f = dot then ⟨some .current, fields⟩ else ⟨none, f :: fields⟩ := by
  simp [before, h, isAbsolute_eq_false h hf]

/-- In front of a path all its components are left. -/
theorem steps_before (p : Path) : (before p).steps = p.components := by
  unfold components segments
  cases hfields : p.bytes.fields slash with
  | nil => exact absurd hfields (Bytes.fields_ne_nil _ _)
  | cons f rest =>
    rw [stepsOf_filter]
    by_cases habs : p.isAbsolute = true
    · obtain ⟨rest', -, heq⟩ := isAbsolute_iff.1 habs
      obtain ⟨rfl, rfl⟩ := List.cons.inj (hfields.symm.trans heq)
      rw [before, if_pos habs, if_pos habs, hfields]
      rfl
    rw [if_neg habs]
    by_cases hnil : f = []
    · -- A relative path with an empty first field is empty.
      cases rest with
      | nil =>
        subst hnil
        rw [before, if_neg habs, hfields]
        rfl
      | cons g rest => exact absurd (isAbsolute_iff.2 ⟨g :: rest, by simp, hnil ▸ hfields⟩) habs
    rw [before_of_fields hfields hnil, List.filter_cons_of_pos (by simpa using hnil),
      List.head?_cons]
    by_cases hdot : f = dot
    · subst hdot
      rfl
    · rw [if_neg hdot, if_neg (by simpa using hdot)]
      rfl

/-- The next step is the first of those that are left. -/
theorem steps_next? (c : Cursor) :
    c.steps = match c.next? with
      | some (step, rest) => step :: rest.steps
      | none => [] := by
  obtain ⟨start, fields⟩ := c
  unfold next?
  cases start with
  | some step => rfl
  | none =>
    rw [steps, ← namesIn_dropWhile]
    simp only
    cases hdrop : fields.dropWhile isIdle with
    | nil => rfl
    | cons name rest =>
      have hname := isIdle_of_dropWhile hdrop
      rw [namesIn_eq, List.filter_cons_of_pos (by simp [hname]), ← namesIn_eq]
      rfl

/-- What is left behind some steps. -/
theorem behind?_iff {l more : List Component} :
    (∃ rest, c.behind? l = some rest ∧ rest.steps = more) ↔ c.steps = l ++ more := by
  induction l generalizing c with
  | nil => simp [behind?]
  | cons step l ih =>
    rw [behind?, steps_next? c]
    cases c.next? with
    | none => simp
    | some next =>
      obtain ⟨found, left⟩ := next
      dsimp only
      split
      · next h => rw [ih, h, List.cons_append, List.cons_inj_right]
      · next h => simp [h]

/-- What a cursor is that has been moved over a path only: at its start a path has a slash or a dot,
if anything, and no field holds a slash. -/
structure Sound (c : Cursor) : Prop where
  start : c.start = none ∨ c.start = some .root ∨ c.start = some .current
  fields : ∀ f ∈ c.fields, slash ∉ f

/-- A cursor is sound in front of a path. -/
theorem sound_before (p : Path) : (before p).Sound := by
  have hfields : ∀ f ∈ p.bytes.fields slash, slash ∉ f := fun f ↦ Bytes.sep_notMem_of_mem_fields
  unfold before
  dsimp only
  split
  · exact ⟨.inr (.inl rfl), fun f hf ↦ hfields f (List.mem_of_mem_tail hf)⟩
  split
  · exact ⟨.inr (.inr rfl), fun f hf ↦ hfields f (List.mem_of_mem_tail hf)⟩
  · exact ⟨.inl rfl, hfields⟩

/-- A cursor is sound behind a step. -/
theorem Sound.next? {step : Component} (h : c.Sound) (hnext : c.next? = some (step, rest)) :
    rest.Sound := by
  unfold Cursor.next? at hnext
  split at hnext
  · cases hnext
    exact ⟨.inl rfl, h.fields⟩
  split at hnext
  · cases hnext
  · next name left hdrop =>
    cases hnext
    refine ⟨.inl rfl, fun f hf ↦ h.fields f (List.dropWhile_subset isIdle ?_)⟩
    rw [hdrop]
    exact List.mem_cons_of_mem name hf

/-- A cursor is sound behind any steps. -/
theorem Sound.behind? {l : List Component} (h : c.Sound) (hbehind : c.behind? l = some rest) :
    rest.Sound := by
  induction l generalizing c with
  | nil => exact Option.some.inj hbehind ▸ h
  | cons step l ih =>
    rw [Cursor.behind?] at hbehind
    split at hbehind
    · next found left hnext =>
      split at hbehind
      · exact ih (h.next? hnext) hbehind
      · cases hbehind
    · cases hbehind

/-- The names of fields that are joined and cut again. -/
theorem namesIn_fields_joined {fs : List Bytes} (h : ∀ f ∈ fs, slash ∉ f) :
    namesIn (Bytes.fields slash (Bytes.joined slash fs)) = namesIn fs := by
  cases fs with
  | nil => rfl
  | cons f fs => rw [Bytes.fields_joined (by simp) h]

/-- What is left, read as a path of its own, has the steps that are left. -/
theorem Sound.components_path (h : c.Sound) : c.path.components = c.steps := by
  obtain ⟨start, fields⟩ := c
  obtain ⟨hstart, hfields⟩ := h
  have hend {fs : List Bytes} (hfs : ∀ f ∈ fs, slash ∉ f) : ∀ f ∈ withoutIdleEnd fs, slash ∉ f := by
    intro f hf
    rw [withoutIdleEnd, List.mem_reverse] at hf
    exact hfs f (List.mem_reverse.1 (List.dropWhile_subset isIdle hf))
  rw [← steps_before]
  rcases hstart with rfl | rfl | rfl
  · have hdrop : ∀ f ∈ fields.dropWhile isIdle, slash ∉ f :=
      fun f hf ↦ hfields f (List.dropWhile_subset isIdle hf)
    cases hcase : fields.dropWhile isIdle with
    | nil =>
      rw [steps, steps, ← namesIn_dropWhile fields, path, hcase]
      rfl
    | cons name rest =>
      have hname := isIdle_of_dropWhile hcase
      rw [hcase] at hdrop
      have hcut : Bytes.fields slash (Bytes.joined slash (name :: withoutIdleEnd rest)) =
          name :: withoutIdleEnd rest :=
        Bytes.fields_joined (List.cons_ne_nil _ _)
          (List.forall_mem_cons.2 ⟨hdrop name List.mem_cons_self,
            hend fun f hf ↦ hdrop f (List.mem_cons_of_mem name hf)⟩)
      have hne : name ≠ [] ∧ name ≠ dot := by simpa [isIdle] using hname
      rw [path, hcase, withoutIdleEnd_cons hname, before_of_fields hcut hne.1, if_neg hne.2, steps,
        steps, ← withoutIdleEnd_cons hname, namesIn_withoutIdleEnd, ← hcase, namesIn_dropWhile]
  · have hnames := namesIn_fields_joined (hend hfields)
    have habs : Path.isAbsolute ⟨slash :: Bytes.joined slash (withoutIdleEnd fields)⟩ = true := rfl
    have htail : (Bytes.fields slash (slash :: Bytes.joined slash (withoutIdleEnd fields))).tail =
        Bytes.fields slash (Bytes.joined slash (withoutIdleEnd fields)) := rfl
    rw [namesIn_withoutIdleEnd] at hnames
    simp only [path, before, habs, if_true, steps, htail, hnames]
  · have hcut : Bytes.fields slash (Bytes.joined slash (dot :: withoutIdleEnd fields)) =
        dot :: withoutIdleEnd fields :=
      Bytes.fields_joined (List.cons_ne_nil _ _)
        (List.forall_mem_cons.2 ⟨by decide, hend hfields⟩)
    rw [path, before_of_fields hcut (by decide), if_pos rfl, steps, steps, namesIn_withoutIdleEnd]

end Cursor

section Below

variable {p dir : Path} {name : Bytes}

/-- A path leads below a directory exactly if its components begin with those of the directory, and
what is left of it has the others. -/
theorem below?_iff {l : List Component} :
    (∃ rest, p.below? dir = some rest ∧ rest.components = l) ↔
      p.components = dir.components ++ l := by
  rw [← Cursor.steps_before p, ← Cursor.behind?_iff, below?]
  constructor
  · rintro ⟨rest, hrest, hl⟩
    obtain ⟨c, hc, rfl⟩ := Option.map_eq_some_iff.1 hrest
    have hsound := (Cursor.sound_before p).behind? hc
    exact ⟨c, hc, hsound.components_path.symm.trans hl⟩
  · rintro ⟨c, hc, hl⟩
    have hsound := (Cursor.sound_before p).behind? hc
    exact ⟨c.path, by rw [hc, Option.map_some], hsound.components_path.trans hl⟩

/-- A path is a single name if that is its only component. -/
theorem single?_eq_some_iff : p.single? = some name ↔ p.components = [.normal name] := by
  unfold single?
  split
  · next found h => simp [h]
  · next h => simpa using fun heq ↦ h name heq

/-- A path leads to a name in a directory exactly if its components are those of the directory and
this name. -/
theorem single?_below?_iff :
    (p.below? dir).bind single? = some name ↔ p.components = dir.components ++ [.normal name] := by
  rw [Option.bind_eq_some_iff, ← below?_iff]
  simp only [single?_eq_some_iff]

end Below

/-! ### Names below the root -/

/-- The names that are left in front of a path are all of its names. -/
theorem namesIn_before (p : Path) : namesIn (Cursor.before p).fields = p.names := by
  unfold Cursor.before names
  dsimp only
  split
  · next habs =>
    obtain ⟨rest, -, heq⟩ := isAbsolute_iff.1 habs
    rw [heq]
    rfl
  split
  · next hdot =>
    obtain ⟨rest, heq⟩ := List.head?_eq_some_iff.1 hdot
    rw [heq]
    rfl
  · rfl

/-- What a path starts with: a slash, a dot or nothing. -/
theorem start_before (p : Path) :
    (Cursor.before p).start = if p.isAbsolute then some .root
      else if (p.bytes.fields slash).head? = some dot then some .current else none := by
  unfold Cursor.before
  dsimp only
  split
  · rfl
  split <;> rfl

/-- The components of a path are what it starts with and then the steps that its names are. -/
theorem components_eq (p : Path) :
    p.components = (Cursor.before p).start.toList ++ p.names.map stepOf := by
  rw [← Cursor.steps_before, Cursor.steps, namesIn_before]

/-- What an absolute path starts with is the root. -/
theorem components_of_isAbsolute {p : Path} (h : p.isAbsolute = true) :
    p.components = .root :: p.names.map stepOf := by
  rw [components_eq, start_before, if_pos h]
  rfl

/-- A name is a step into a directory, unless it is two dots. -/
theorem stepOf_eq_normal_iff {name step : Bytes} :
    stepOf name = .normal step ↔ name = step ∧ step ≠ dotDot := by
  unfold stepOf
  split
  · next h => simpa [h] using fun heq ↦ heq.symm
  · next h =>
    rw [Component.normal.injEq]
    exact ⟨fun heq ↦ ⟨heq, heq ▸ h⟩, And.left⟩

/-- The steps into directories are the fields other than empty ones, dots and two dots. -/
theorem normal_mem_components_iff {p : Path} {name : Bytes} :
    .normal name ∈ p.components ↔
      name ∈ p.bytes.fields slash ∧ name ≠ [] ∧ name ≠ dot ∧ name ≠ dotDot := by
  have hstart : .normal name ∉ (Cursor.before p).start.toList := by
    rw [start_before]
    split
    · simp
    split <;> simp
  have hname : name ∈ p.names ↔ name ∈ p.bytes.fields slash ∧ name ≠ [] ∧ name ≠ dot := by
    simp [names, namesIn]
  rw [components_eq, List.mem_append, or_iff_right hstart, List.mem_map]
  simp only [stepOf_eq_normal_iff]
  constructor
  · rintro ⟨_, hmem, rfl, hdots⟩
    obtain ⟨hfield, hnil, hdot⟩ := hname.1 hmem
    exact ⟨hfield, hnil, hdot, hdots⟩
  · rintro ⟨hfield, hnil, hdot, hdots⟩
    exact ⟨name, hname.2 ⟨hfield, hnil, hdot⟩, rfl, hdots⟩

/-- Names are steps into directories as long as two dots are not among them. -/
theorem map_stepOf_eq_iff {l names : List Bytes} :
    l.map stepOf = names.map .normal ↔ l = names ∧ dotDot ∉ names := by
  induction l generalizing names with
  | nil => cases names <;> simp
  | cons name l ih =>
    cases names with
    | nil => simp
    | cons other names =>
      rw [List.map_cons, List.map_cons, List.cons_eq_cons, List.cons_eq_cons, ih,
        stepOf_eq_normal_iff, List.mem_cons, not_or]
      constructor
      · rintro ⟨⟨rfl, hother⟩, rfl, hnames⟩
        exact ⟨⟨rfl, rfl⟩, Ne.symm hother, hnames⟩
      · rintro ⟨⟨rfl, rfl⟩, hother, hnames⟩
        exact ⟨⟨rfl, Ne.symm hother⟩, rfl, hnames⟩

/-- The components of a path are the root and then given names exactly if it is absolute, these are
its names, and two dots are not among them. -/
theorem components_eq_iff {p : Path} {names : List Bytes} :
    p.components = .root :: names.map .normal ↔
      p.isAbsolute = true ∧ p.names = names ∧ dotDot ∉ names := by
  by_cases habs : p.isAbsolute = true
  · rw [components_of_isAbsolute habs, List.cons_inj_right, map_stepOf_eq_iff, and_iff_right habs]
  · refine iff_of_false (fun h ↦ ?_) fun h ↦ habs h.1
    have hroot : .root ∈ p.components := h ▸ List.mem_cons_self
    rw [components_eq, List.mem_append, List.mem_map] at hroot
    rcases hroot with hstart | ⟨name, -, hname⟩
    · rw [start_before, if_neg habs] at hstart
      split at hstart <;> simp at hstart
    · unfold stepOf at hname
      split at hname <;> cases hname

/-- Whether a path leads from the root through the names of a directory to one more, which is not
two dots. -/
structure IsIn (p : Path) (dir : List Bytes) (leaf : Bytes) : Prop where
  absolute : p.isAbsolute = true
  names : p.names = dir ++ [leaf]
  inner : leaf ≠ dotDot

section IsIn

variable {p dir : Path} {names : List Bytes} {leaf other : Bytes}

/-- A path leads to a single name below a directory exactly if it leads from the root through the
names of the directory to this name. -/
theorem single?_below?_iff_isIn (hdir : dir.components = .root :: names.map .normal)
    (hnames : dotDot ∉ names) :
    (p.below? dir).bind single? = some leaf ↔ p.IsIn names leaf := by
  have hsteps : dir.components ++ [.normal leaf] = .root :: (names ++ [leaf]).map .normal := by
    rw [hdir, List.map_append]
    rfl
  rw [single?_below?_iff, hsteps, components_eq_iff]
  constructor
  · rintro ⟨habs, hp, hnot⟩
    exact ⟨habs, hp, fun h ↦ hnot (List.mem_append_right names (List.mem_singleton.2 h.symm))⟩
  · rintro ⟨habs, hp, hleaf⟩
    refine ⟨habs, hp, ?_⟩
    rw [List.mem_append, List.mem_singleton, not_or]
    exact ⟨hnames, Ne.symm hleaf⟩

/-- A path leads to one name in a directory. -/
theorem IsIn.leaf_eq (h : p.IsIn names leaf) (h' : p.IsIn names other) : leaf = other :=
  List.singleton_inj.1 (List.append_cancel_left (h.names.symm.trans h'.names))

/-- The name that a path leads to holds no slash. -/
theorem IsIn.slash_notMem (h : p.IsIn names leaf) : slash ∉ leaf := by
  have hmem : leaf ∈ p.names := h.names ▸ List.mem_append_right names List.mem_cons_self
  exact Bytes.sep_notMem_of_mem_fields (List.mem_filter.1 hmem).1

/-- Two dots are nowhere in a path that leads to a name in a directory. -/
theorem IsIn.dotDot_notMem (h : p.IsIn names leaf) (hnames : dotDot ∉ names) :
    dotDot ∉ p.bytes.fields slash := by
  intro hmem
  have hname : dotDot ∈ p.names := List.mem_filter.2 ⟨hmem, by decide⟩
  rw [h.names, List.mem_append, List.mem_singleton] at hname
  exact hname.elim hnames (Ne.symm h.inner)

end IsIn

/-! ### Going on with a path -/

/-- A path that goes on has the fields of both parts, but for the one behind a slash at the end of
the first. -/
theorem fields_join {p q : Path} (hp : p.bytes ≠ []) (hq : q.isAbsolute = false) :
    ∃ front last, front ≠ [] ∧ (last = [] ∨ last = [[]]) ∧
      p.bytes.fields slash = front ++ last ∧
      (p.join q).bytes.fields slash = front ++ q.bytes.fields slash := by
  by_cases hlast : p.bytes.getLast? = some slash
  · obtain ⟨s, hs⟩ := List.getLast?_eq_some_iff.1 hlast
    refine ⟨Bytes.fields slash s, [[]], Bytes.fields_ne_nil _ _, .inr rfl, ?_, ?_⟩
    · rw [hs, Bytes.fields_append_cons]
      rfl
    · rw [join, if_neg (by simp [hq]), if_pos (.inr hlast)]
      dsimp only
      rw [hs, List.append_assoc, List.singleton_append, Bytes.fields_append_cons]
  · refine ⟨p.bytes.fields slash, [], Bytes.fields_ne_nil _ _, .inl rfl, ?_, ?_⟩
    · rw [List.append_nil]
    · rw [join, if_neg (by simp [hq]), if_neg (not_or.2 ⟨hp, hlast⟩)]
      exact Bytes.fields_append_cons p.bytes q.bytes

/-- A path goes on by the names of a relative path. -/
theorem names_join {p q : Path} (hp : p.bytes ≠ []) (hq : q.isAbsolute = false) :
    (p.join q).names = p.names ++ q.names := by
  obtain ⟨front, last, -, hlast, hcut, hjoin⟩ := fields_join hp hq
  rw [names, names, names, hjoin, hcut, namesIn_append, namesIn_append]
  rcases hlast with rfl | rfl
  · rw [show namesIn [] = [] from rfl, List.append_nil]
  · rw [show namesIn [[]] = [] from rfl, List.append_nil]

/-- A path that goes on starts as it did. -/
theorem isAbsolute_join {p q : Path} (hp : p.bytes ≠ []) (hq : q.isAbsolute = false) :
    (p.join q).isAbsolute = p.isAbsolute := by
  obtain ⟨b, rest, hb⟩ := List.exists_cons_of_ne_nil hp
  rw [join, if_neg (by simp [hq])]
  split <;> simp [isAbsolute, hb]

/-- A path goes on by the steps of a relative path. -/
theorem components_join {p q : Path} (hp : p.bytes ≠ []) (hq : q.isAbsolute = false) :
    (p.join q).components = p.components ++ q.names.map stepOf := by
  obtain ⟨front, last, hfront, -, hcut, hjoin⟩ := fields_join hp hq
  have hstart : (Cursor.before (p.join q)).start = (Cursor.before p).start := by
    obtain ⟨f, fields, rfl⟩ := List.exists_cons_of_ne_nil hfront
    rw [start_before, start_before, isAbsolute_join hp hq, hjoin, hcut, List.cons_append,
      List.cons_append, List.head?_cons, List.head?_cons]
  rw [components_eq, components_eq, names_join hp hq, hstart, List.map_append, List.append_assoc]

end Path

end PtyHost
