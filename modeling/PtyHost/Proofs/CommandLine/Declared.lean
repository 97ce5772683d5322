import Mathlib.Data.List.Nodup
import Mathlib.Data.List.TakeWhile
import PtyHost.CommandLine.Declaration

/-!
# What a declared command line accepts

A parser of declared command lines is documented by what it accepts: distinct flags of the
declaration in their long form, nothing behind `--`, and a choice of flags that no group objects
to. The parser of this library, which reads one argument after the other, is one of them.
-/

namespace PtyHost.CommandLine

/-- The arguments that can be flags. -/
def options (args : List Bytes) : List Bytes := args.takeWhile (· ≠ separator)

/-- The arguments that cannot be flags, because they stand behind the first `--`. -/
def operands (args : List Bytes) : List Bytes := (args.dropWhile (· ≠ separator)).tail

theorem options_separator (args : List Bytes) : options (separator :: args) = [] := by
  simp [options]

theorem operands_separator (args : List Bytes) : operands (separator :: args) = args := by
  simp [operands]

theorem options_cons {arg : Bytes} (h : arg ≠ separator) (args : List Bytes) :
    options (arg :: args) = arg :: options args := by
  simp [options, h]

theorem operands_cons {arg : Bytes} (h : arg ≠ separator) (args : List Bytes) :
    operands (arg :: args) = operands args := by
  simp [operands, h]

/-- The arguments are the options, and the operands behind `--` if there is one. -/
theorem eq_options (args : List Bytes) :
    args = options args ∨ args = options args ++ separator :: operands args := by
  induction args with
  | nil => exact .inl rfl
  | cons arg args ih =>
    by_cases h : arg = separator
    · subst h
      exact .inr (by rw [options_separator, operands_separator]; rfl)
    · rw [options_cons h, operands_cons h, List.cons_append]
      exact ih.imp (congrArg (arg :: ·)) (congrArg (arg :: ·))

/-- A declaration whose flags can be told apart, from `--` and from the requests for help and for
the version too. -/
structure Declaration.Sound (d : Declaration) : Prop where
  nodup : (d.flags.map longForm).Nodup
  ne_separator : ∀ f ∈ d.flags, longForm f ≠ separator
  equals_notMem : ∀ f ∈ d.flags, equals ∉ longForm f
  not_help : ∀ f ∈ d.flags, ¬ asksForHelp (longForm f)
  not_version : ∀ f ∈ d.flags, ¬ asksForVersion (longForm f)
  members : ∀ g ∈ d.groups, ∀ f ∈ g.members, f ∈ d.flags

/-- What is documented of a parser that answers with the flags that are given: what it asks of the
arguments that it accepts, what it answers, and that it asks nothing more. -/
structure Documented {ρ : Type} (parse : Declaration → List Bytes → Except ρ (List String)) :
    Prop where
  /-- Nothing but declared flags is taken. -/
  declared {d args given} : d.Sound → parse d args = .ok given →
    ∀ arg ∈ options args.tail, ∃ f ∈ d.flags, arg = longForm f
  /-- Behind `--` there are no flags. -/
  no_operand {d args given} : d.Sound → parse d args = .ok given → operands args.tail = []
  /-- A flag is given once. -/
  once {d args given} : d.Sound → parse d args = .ok given → (options args.tail).Nodup
  /-- The answer has the flags that are given. -/
  mem_given {d args given} : d.Sound → parse d args = .ok given →
    ∀ f ∈ d.flags, f ∈ given ↔ longForm f ∈ options args.tail
  /-- One of a group that is required is given. -/
  required {d args given} : d.Sound → parse d args = .ok given →
    ∀ g ∈ d.groups, g.required → ∃ f ∈ g.members, f ∈ given
  /-- Two of a group are given only if it lets them. -/
  exclusive {d args given} : d.Sound → parse d args = .ok given →
    ∀ g ∈ d.groups, ¬ g.multiple → ∀ f ∈ g.members, ∀ f' ∈ g.members,
      f ∈ given → f' ∈ given → f = f'
  /-- Nothing more is asked for. -/
  accepts {d args fs} : d.Sound → options args.tail = fs.map longForm → operands args.tail = [] →
    fs.Nodup → (∀ f ∈ fs, f ∈ d.flags) → d.objection? fs = none → ∃ given, parse d args = .ok given

namespace Declaration

variable {d : Declaration} {given given' : List String} {arg : Bytes} {args rest : List Bytes}

/-- The flags of a sound declaration are known by their long forms. -/
theorem Sound.longForm_inj (h : d.Sound) {f f' : String} (hf : f ∈ d.flags) (hf' : f' ∈ d.flags)
    (he : longForm f = longForm f') : f = f' :=
  List.inj_on_of_nodup_map h.nodup hf hf' he

/-- The long form of a flag gives the flag. -/
theorem Sound.flag?_longForm (h : d.Sound) {f : String} (hf : f ∈ d.flags) :
    d.flag? (longForm f) = some f := by
  have hname : (longForm f).takeWhile (· ≠ equals) = longForm f :=
    List.takeWhile_eq_self_iff.2 fun b hb ↦
      decide_eq_true fun he ↦ h.equals_notMem f hf (he ▸ hb)
  rw [flag?, hname]
  cases hfind : d.flags.find? (longForm · = longForm f) with
  | none => exact absurd (decide_eq_true (Eq.refl (longForm f))) (List.find?_eq_none.1 hfind f hf)
  | some f' =>
    have hsame : longForm f' = longForm f := by simpa using List.find?_some hfind
    rw [h.longForm_inj (List.mem_of_find?_eq_some hfind) hf hsame]

/-- One argument adds a declared flag that has not been given yet, and no other is accepted. -/
theorem read_eq_ok_iff (h : d.Sound) :
    d.read given arg = .ok given' ↔
      ∃ f ∈ d.flags, arg = longForm f ∧ f ∉ given ∧ given' = given ++ [f] := by
  constructor
  · intro hread
    unfold read at hread
    split at hread
    · cases hread
    split at hread
    · cases hread
    split at hread
    · cases hread
    · rename_i f hfind
      split at hread
      · cases hread
      split at hread
      · cases hread
      rename_i hwhole hnew
      exact ⟨f, List.mem_of_find?_eq_some hfind, not_not.1 hwhole, hnew,
        (Except.ok.inj hread).symm⟩
  · rintro ⟨f, hf, rfl, hnew, rfl⟩
    simp [read, h.not_help f hf, h.not_version f hf, h.flag?_longForm hf, hnew]

/-- What is read to the end: distinct declared flags in their long form, and no operand. -/
theorem scan_eq_ok_iff (h : d.Sound) :
    d.scan given args = .ok given' ↔
      ∃ fs, options args = fs.map longForm ∧ operands args = [] ∧ (∀ f ∈ fs, f ∈ d.flags) ∧
        fs.Nodup ∧ (∀ f ∈ fs, f ∉ given) ∧ given' = given ++ fs := by
  induction args generalizing given with
  | nil =>
    simp only [scan, Except.ok.injEq]
    constructor
    · rintro rfl
      exact ⟨[], by simp [options, operands]⟩
    · rintro ⟨fs, hopts, -, -, -, -, rfl⟩
      rw [List.map_eq_nil_iff.1 hopts.symm, List.append_nil]
  | cons arg args ih =>
    by_cases harg : arg = separator
    · subst harg
      rw [options_separator, operands_separator]
      cases args with
      | nil =>
        simp only [scan, if_true, close, Except.ok.injEq]
        constructor
        · rintro rfl
          exact ⟨[], by simp⟩
        · rintro ⟨fs, hopts, -, -, -, -, rfl⟩
          rw [List.map_eq_nil_iff.1 hopts.symm, List.append_nil]
      | cons operand args => simp [scan, close]
    · rw [options_cons harg, operands_cons harg, scan, if_neg harg]
      constructor
      · intro hscan
        cases hread : d.read given arg with
        | error e => simp [hread] at hscan
        | ok given₁ =>
          rw [hread] at hscan
          obtain ⟨f, hf, rfl, hnew, rfl⟩ := (read_eq_ok_iff h).1 hread
          obtain ⟨fs, hopts, hops, hfs, hnodup, hapart, rfl⟩ := ih.1 hscan
          have hfresh : ∀ f' ∈ fs, f' ∉ given ∧ f' ≠ f := fun f' hf' ↦
            by simpa using hapart f' hf'
          exact ⟨f :: fs, by rw [hopts, List.map_cons], hops, List.forall_mem_cons.2 ⟨hf, hfs⟩,
            List.nodup_cons.2 ⟨fun hmem ↦ (hfresh f hmem).2 rfl, hnodup⟩,
            List.forall_mem_cons.2 ⟨hnew, fun f' hf' ↦ (hfresh f' hf').1⟩, by simp⟩
      · rintro ⟨fs, hopts, hops, hfs, hnodup, hapart, rfl⟩
        cases fs with
        | nil => cases hopts
        | cons f fs =>
          obtain ⟨rfl, hrest⟩ := List.cons_eq_cons.1 hopts
          obtain ⟨hf, hfs⟩ := List.forall_mem_cons.1 hfs
          obtain ⟨hnew, hapart⟩ := List.forall_mem_cons.1 hapart
          obtain ⟨hmem, hnodup⟩ := List.nodup_cons.1 hnodup
          rw [(read_eq_ok_iff h).2 ⟨f, hf, rfl, hnew, rfl⟩]
          refine ih.2 ⟨fs, hrest, hops, hfs, hnodup, fun f' hf' ↦ ?_, by simp⟩
          have hne : f' ≠ f := fun he ↦ hmem (he ▸ hf')
          simp [hapart f' hf', hne]

/-- Groups do not object if one of each that is required is given, and no two of one that excludes
them. -/
theorem objection?_eq_none_iff :
    d.objection? given = none ↔
      (∀ g ∈ d.groups, ¬ g.Conflicting given) ∧ ∀ g ∈ d.groups, ¬ g.Missing given := by
  unfold objection?
  split
  · rename_i g hfind
    have hconflict : g.Conflicting given := by simpa using List.find?_some hfind
    simpa using fun hnone ↦ absurd hconflict (hnone g (List.mem_of_find?_eq_some hfind))
  · rename_i hfind
    have hnone : ∀ g ∈ d.groups, ¬ g.Conflicting given := by simpa using hfind
    simpa using fun _ ↦ hnone

/-- The parser accepts distinct declared flags in their long form, no operand, and a choice that
no group objects to. -/
theorem parse_eq_ok_iff (h : d.Sound) :
    d.parse args = .ok given ↔
      options args.tail = given.map longForm ∧ operands args.tail = [] ∧
        (∀ f ∈ given, f ∈ d.flags) ∧ given.Nodup ∧ d.objection? given = none := by
  unfold parse
  constructor
  · intro hparse
    split at hparse
    · cases hparse
    · rename_i given' hscan
      obtain ⟨fs, hopts, hops, hfs, hnodup, -, rfl⟩ := (scan_eq_ok_iff h).1 hscan
      split at hparse
      · cases hparse
      · rename_i hnone
        obtain rfl := Except.ok.inj hparse
        exact ⟨hopts, hops, hfs, hnodup, hnone⟩
  · rintro ⟨hopts, hops, hfs, hnodup, hnone⟩
    have hscan : d.scan [] args.tail = .ok given :=
      (scan_eq_ok_iff h).2 ⟨given, hopts, hops, hfs, hnodup, by simp, rfl⟩
    rw [hscan]
    simp only [hnone]

/-- The parser that reads one argument after the other is as documented. -/
theorem parse_documented : Documented parse where
  declared h hparse arg harg := by
    obtain ⟨hopts, -, hfs, -⟩ := (parse_eq_ok_iff h).1 hparse
    obtain ⟨f, hf, rfl⟩ := List.mem_map.1 (hopts ▸ harg)
    exact ⟨f, hfs f hf, rfl⟩
  no_operand h hparse := ((parse_eq_ok_iff h).1 hparse).2.1
  once h hparse := by
    obtain ⟨hopts, -, hfs, hnodup, -⟩ := (parse_eq_ok_iff h).1 hparse
    rw [hopts]
    exact hnodup.map_on fun f hf f' hf' ↦ h.longForm_inj (hfs f hf) (hfs f' hf')
  mem_given h hparse f hf := by
    obtain ⟨hopts, -, hfs, -⟩ := (parse_eq_ok_iff h).1 hparse
    rw [hopts, List.mem_map]
    constructor
    · exact fun hmem ↦ ⟨f, hmem, rfl⟩
    · rintro ⟨f', hf', hsame⟩
      rwa [← h.longForm_inj (hfs f' hf') hf hsame]
  required h hparse g hg hrequired := by
    obtain ⟨-, -, -, -, hnone⟩ := (parse_eq_ok_iff h).1 hparse
    have hmissing := (objection?_eq_none_iff.1 hnone).2 g hg
    simpa [FlagGroup.Missing, hrequired] using hmissing
  exclusive h hparse g hg hmultiple f hf f' hf' hgiven hgiven' := by
    obtain ⟨-, -, -, -, hnone⟩ := (parse_eq_ok_iff h).1 hparse
    by_contra hne
    exact (objection?_eq_none_iff.1 hnone).1 g hg ⟨hmultiple, f, hf, f', hf', hne, hgiven, hgiven'⟩
  accepts h hopts hops hnodup hfs hnone :=
    ⟨_, (parse_eq_ok_iff h).2 ⟨hopts, hops, hfs, hnodup, hnone⟩⟩

end Declaration

end PtyHost.CommandLine
