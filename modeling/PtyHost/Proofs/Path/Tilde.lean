import PtyHost.Home
import PtyHost.Proofs.Path.Components

/-!
# Where a tilde leads

A tilde in front of a path stands for the home directory, and what is behind the tilde and its slash
goes on from there. If another slash comes first, what is behind is absolute and stands alone, so
the home directory is lost.

Main statement: `expandTilde_leads`, on every home directory and every text.
-/

namespace PtyHost

/-! ### What a path goes on by -/

namespace Path

variable {p q : Path}

/-- A path that is absolute stands alone. -/
theorem join_of_isAbsolute (h : q.isAbsolute = true) : p.join q = q := if_pos h

/-- Behind an empty path anything stands alone. -/
theorem join_of_empty (h : p.bytes = []) : p.join q = q := by
  unfold join
  split
  · rfl
  · rw [if_pos (Or.inl h), h]
    rfl

/-- The steps by which a path goes on. The dot that a relative path starts with is one only behind
an empty path. -/
def stepsAfter (p q : Path) : List Component :=
  if p.bytes = [] then q.components else q.names.map stepOf

/-- A path goes on by the steps of a relative path, from where it leads. -/
theorem components_join_stepsAfter (h : q.isAbsolute = false) :
    (p.join q).components = p.components ++ stepsAfter p q := by
  unfold stepsAfter
  split
  · next hempty =>
    obtain ⟨bytes⟩ := p
    subst hempty
    rw [join_of_empty rfl]
    rfl
  · next hne => exact components_join hne h

/-- A path that goes on leads below where it led, unless what is behind is absolute and leads
elsewhere. -/
theorem isPrefix_components_join_iff :
    p.components <+: (p.join q).components ↔
      (q.isAbsolute = true → p.components <+: q.components) := by
  cases h : q.isAbsolute with
  | false =>
    rw [components_join_stepsAfter h]
    simp
  | true =>
    rw [join_of_isAbsolute h]
    simp

end Path

/-! ### Texts with a tilde -/

section Tilde

variable {text : String}

/-- Without a home directory a text is the path itself. -/
theorem expandTilde_none (text : String) : expandTilde none text = .ofText text := rfl

/-- A tilde alone is the home directory. -/
theorem expandTilde_tilde (home : Path) : expandTilde (some home) "~" = home := rfl

/-- From a tilde in front of a slash a path goes on at the home directory. -/
theorem expandTilde_slash (home : Path) (rest : String) :
    expandTilde (some home) ("~/" ++ rest) = home.join (.ofText rest) := by
  have htext : ("~/" ++ rest).toList = '~' :: '/' :: rest.toList := String.toList_append
  unfold expandTilde
  rw [htext]
  simp only [String.ofList_toList]

/-- Any other text is the path itself. -/
theorem expandTilde_of_ne {home : Option Path} (h : text ≠ "~") (h' : ∀ rest, text ≠ "~/" ++ rest) :
    expandTilde home text = .ofText text := by
  unfold expandTilde
  split
  · next htext => exact absurd (String.toList_inj.1 htext) h
  · next rest htext =>
    refine absurd ?_ (h' (String.ofList rest))
    rw [← String.toList_inj, htext, String.toList_append, String.toList_ofList]
    simp
  · rfl

end Tilde

/-- Without a home directory, or without a tilde that stands alone or in front of a slash, a text is
the path itself. A tilde alone is the home directory. Behind a slash a path goes on from there by
the steps of what is behind, as long as this is relative; if it is absolute it stands alone. So the
path leads below the home directory exactly if what is behind is relative or leads there by
itself. -/
theorem expandTilde_leads (home : Path) :
    (∀ text, expandTilde none text = .ofText text) ∧
    (∀ text, text ≠ "~" → (∀ rest, text ≠ "~/" ++ rest) →
      expandTilde (some home) text = .ofText text) ∧
    expandTilde (some home) "~" = home ∧
    ∀ rest,
      ((Path.ofText rest).isAbsolute = false →
        (expandTilde (some home) ("~/" ++ rest)).components =
          home.components ++ home.stepsAfter (.ofText rest)) ∧
      ((Path.ofText rest).isAbsolute = true →
        expandTilde (some home) ("~/" ++ rest) = .ofText rest) ∧
      (home.components <+: (expandTilde (some home) ("~/" ++ rest)).components ↔
        ((Path.ofText rest).isAbsolute = true →
          home.components <+: (Path.ofText rest).components)) := by
  refine ⟨expandTilde_none, fun _ ↦ expandTilde_of_ne, expandTilde_tilde home, fun rest ↦ ?_⟩
  rw [expandTilde_slash]
  exact ⟨Path.components_join_stepsAfter, Path.join_of_isAbsolute,
    Path.isPrefix_components_join_iff⟩

/-- Another slash behind the first loses the home directory, and a dot does not. -/
theorem expandTilde_leads_away :
    expandTilde (some (.ofAscii "/home/u")) "~//x" = .ofAscii "/x" ∧
    ¬ (Path.ofAscii "/home/u").components <+:
      (expandTilde (some (.ofAscii "/home/u")) "~//x").components ∧
    (expandTilde (some (.ofAscii "/home/u")) "~/./x").components =
      (Path.ofAscii "/home/u/x").components := by
  obtain ⟨-, -, -, hbehind⟩ := expandTilde_leads (.ofAscii "/home/u")
  obtain ⟨-, hlost, hbelow⟩ := hbehind "/x"
  obtain ⟨hsteps, -, -⟩ := hbehind "./x"
  exact ⟨hlost (by decide), fun h ↦ absurd (hbelow.1 h) (by decide),
    (hsteps (by decide)).trans (by decide)⟩

end PtyHost
