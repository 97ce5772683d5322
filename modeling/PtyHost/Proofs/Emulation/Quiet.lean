import PtyHost.Emulation.TitleTracker

/-!
# Emulations that have nothing to report

An emulation is quiet when it has handed out all that it has reported. A modest one is quiet after
that, is not woken by another window size, and reports of the user's scroll lock nothing but that
the output is to be held or let go.

Main statements: `Discard` and `TitleTracker` are modest, and so is a choice of two modest ones.
-/

namespace PtyHost.Emulation

/-- Whether an emulation has nothing to report. -/
def Quiet {ε : Type} [Emulation ε] (e : ε) : Prop := (takeEvents e).1 = []

/-- An emulation that reports nothing of its own accord. -/
class Modest (ε : Type) [Emulation ε] : Prop where
  quiet_taken (e : ε) : Quiet (takeEvents e).2
  quiet_resized {e : ε} (size : WindowSize) (h : Quiet e) : Quiet (Emulation.resized e size)
  lock_of_mem {e : ε} (locked : Bool) (h : Quiet e) :
    ∀ event ∈ (takeEvents (Emulation.scrollLock e locked)).1, ∃ held, event = .lock held

/-- An emulation that drops all output has nothing to report. -/
theorem quiet_discard (d : Discard) : Quiet d := rfl

instance : Modest Discard where
  quiet_taken := quiet_discard
  quiet_resized := by
    intro d size _
    exact quiet_discard _
  lock_of_mem := by
    intro d locked _ event hevent
    cases hevent

/-- A title tracker is quiet exactly if there is nothing that it has reported. -/
theorem quiet_titleTracker_iff {t : TitleTracker} : Quiet t ↔ t.reported = [] := by
  show t.reported.reverse = [] ↔ t.reported = []
  exact List.reverse_eq_nil_iff

instance : Modest TitleTracker where
  quiet_taken := by
    intro t
    exact quiet_titleTracker_iff.2 rfl
  quiet_resized := by
    intro t size h
    exact quiet_titleTracker_iff.2 (quiet_titleTracker_iff.1 h)
  lock_of_mem := by
    intro t locked h event hevent
    replace h := quiet_titleTracker_iff.1 h
    change event ∈ (t.scrollLock locked).reported.reverse at hevent
    rw [List.mem_reverse] at hevent
    unfold TitleTracker.scrollLock at hevent
    split at hevent
    · rw [h] at hevent
      cases hevent
    · simp only [h, List.mem_singleton] at hevent
      exact ⟨locked, hevent⟩

variable {ε δ : Type} [Emulation ε] [Emulation δ]

/-- The first of two kinds is quiet as itself. -/
theorem quiet_inl_iff {e : ε} : Quiet (.inl e : ε ⊕ δ) ↔ Quiet e := Iff.rfl

/-- The second of two kinds is quiet as itself. -/
theorem quiet_inr_iff {e : δ} : Quiet (.inr e : ε ⊕ δ) ↔ Quiet e := Iff.rfl

instance [Modest ε] [Modest δ] : Modest (ε ⊕ δ) where
  quiet_taken := by
    rintro (e | e)
    · show Quiet (.inl (takeEvents e).2 : ε ⊕ δ)
      exact quiet_inl_iff.2 (Modest.quiet_taken e)
    · show Quiet (.inr (takeEvents e).2 : ε ⊕ δ)
      exact quiet_inr_iff.2 (Modest.quiet_taken e)
  quiet_resized := by
    rintro (e | e) size h
    · have hquiet : Quiet (Emulation.resized e size) := Modest.quiet_resized size h
      exact quiet_inl_iff.2 hquiet
    · have hquiet : Quiet (Emulation.resized e size) := Modest.quiet_resized size h
      exact quiet_inr_iff.2 hquiet
  lock_of_mem := by
    rintro (e | e) locked h
    · have hlock : ∀ event ∈ (takeEvents (Emulation.scrollLock e locked)).1,
          ∃ held, event = .lock held := Modest.lock_of_mem locked h
      exact hlock
    · have hlock : ∀ event ∈ (takeEvents (Emulation.scrollLock e locked)).1,
          ∃ held, event = .lock held := Modest.lock_of_mem locked h
      exact hlock

end PtyHost.Emulation
