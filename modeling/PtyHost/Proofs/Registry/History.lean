import PtyHost.Registry
import PtyHost.Proofs.Session.Notices

/-!
# What becomes of a registry

A registry is used in any order: sessions are made, operated on, taken out and let go of, and all of
them are terminated together. The sessions tell their owner what happens over one channel.

Main statements: `Books` is what a registry keeps throughout, `Books.step` that every deed keeps it,
and `registry_books` what follows for its limit, its numbers, its list and its channel.
-/

namespace PtyHost.Registry

open Session (notices finishes)

/-- Something that is done with a registry: a session is made, one is taken out and let go of, all
that have terminated are, all are terminated together, or an operation is made on one session or
something happens to the operation that waits on it. -/
inductive Deed (ε : Type)
  | create (emulation : ε)
  | remove (id : SessionId) (a : Answers)
  | sweep (a : Answers)
  | terminateAll (a : Answers)
  | on (id : SessionId) (m : Session.Move)

/-- A registry with the operations that wait and all that its sessions have done, the numbers that
it has given out, in order, and those of the sessions that were taken out. -/
structure History (ε : Type) extends Shutdown ε where
  created : List SessionId := []
  taken : List SessionId := []

namespace History

variable {ε : Type}

/-- The beginning of a history. -/
def start (maxSessions : Nat) (options : SessionOptions) : History ε :=
  { registry := { maxSessions, options } }

/-- Goes on with what operations on the sessions have come to. -/
def after (h : History ε) (d : Shutdown ε) : History ε :=
  { h with registry := d.registry, waits := d.waits, trace := h.trace ++ d.trace }

/-- Lets go of sessions, of which the registry is without. -/
def letGo (h : History ε) (gone : List (SessionId × Session ε)) (r : Registry ε) (a : Answers) :
    History ε where
  registry := r
  waits := h.waits.filter fun w ↦ w.1 ∉ gone.map (·.1)
  trace := h.trace ++ gone.flatMap fun e ↦ (e.2.drop a).map fun x ↦ (e.1, x)
  created := h.created
  taken := h.taken ++ gone.map (·.1)

/-- Does something with a registry. -/
def step [Emulation ε] (h : History ε) : Deed ε → History ε
  | .create emulation =>
    match h.registry.create emulation with
    | .ok (id, r) => { h with registry := r, created := h.created ++ [id] }
    | .error _ => h
  | .remove id a =>
    match h.registry.remove id with
    | some (s, r) => h.letGo [(id, s)] r a
    | none => h
  | .sweep a => h.letGo h.registry.sweep.1 h.registry.sweep.2 a
  | .terminateAll a => h.after (h.registry.terminateAll a)
  | .on id m =>
    match h.registry.get? id with
    | some s =>
      h.after ((⟨h.registry, h.waits, []⟩ : Shutdown ε).take id (m.act s (h.waits.lookup id)))
    | none => h

/-- A session is made with the next number, unless there are as many as there may be. -/
theorem step_create [Emulation ε] (h : History ε) (emulation : ε) :
    h.step (.create emulation) =
      if h.registry.maxSessions ≤ h.registry.sessions.length then h
      else { h with
        registry := { h.registry with
          sessions := h.registry.sessions ++
            [(h.registry.nextId, .new h.registry.nextId h.registry.options emulation)]
          nextId := h.registry.nextId + 1 }
        created := h.created ++ [h.registry.nextId] } := by
  by_cases hfull : h.registry.maxSessions ≤ h.registry.sessions.length
  · simp only [step, Registry.create, if_pos hfull]
  · simp only [step, Registry.create, if_neg hfull]

/-- Does several things, one after the other. -/
def run [Emulation ε] (h : History ε) (deeds : List (Deed ε)) : History ε := deeds.foldl step h

/-- What has been told over the channel, the oldest first. -/
def events (h : History ε) : List Notification := notices (h.trace.map (·.2))

end History

/-- How often the end of the session with a number is told of. -/
def finishesOf (id : SessionId) (ns : List Notification) : Nat :=
  finishes (ns.filter fun n ↦ n.id = id)

theorem finishesOf_append (id : SessionId) (ns more : List Notification) :
    finishesOf id (ns ++ more) = finishesOf id ns + finishesOf id more := by
  simp [finishesOf, finishes]

/-- What one session tells says nothing of the end of another. -/
theorem finishesOf_of_ne {id other : SessionId} {ns : List Notification}
    (h : ∀ n ∈ ns, n.id = id) (hne : other ≠ id) : finishesOf other ns = 0 := by
  have hnone : ns.filter (fun n ↦ n.id = other) = [] := by
    refine List.filter_eq_nil_iff.2 fun n hn ↦ ?_
    simpa [h n hn] using Ne.symm hne
  rw [finishesOf, hnone]
  rfl

/-- What one session tells is all about it. -/
theorem finishesOf_self {id : SessionId} {ns : List Notification} (h : ∀ n ∈ ns, n.id = id) :
    finishesOf id ns = finishes ns := by
  rw [finishesOf, List.filter_eq_self.2 fun n hn ↦ decide_eq_true (h n hn)]

variable {ε : Type}

/-- A session that is found is in the registry. -/
theorem mem_of_get? {r : Registry ε} {id : SessionId} {s : Session ε} (h : r.get? id = some s) :
    (id, s) ∈ r.sessions := by
  obtain ⟨first, rest, hsessions, -⟩ := List.lookup_eq_some_iff.1 h
  rw [hsessions]
  simp

/-- A session in the registry is found, if no other one has its number. -/
theorem get?_of_mem {r : Registry ε} (hnodup : (r.sessions.map (·.1)).Nodup)
    {e : SessionId × Session ε} (h : e ∈ r.sessions) : r.get? e.1 = some e.2 := by
  obtain ⟨first, rest, hsessions⟩ := List.append_of_mem h
  rw [hsessions, List.map_append, List.map_cons] at hnodup
  refine List.lookup_eq_some_iff.2 ⟨first, rest, hsessions, fun p hp ↦ ?_⟩
  have hne : p.1 ≠ e.1 :=
    (List.nodup_append.1 hnodup).2.2 p.1 (List.mem_map_of_mem hp) e.1 List.mem_cons_self
  simpa using Ne.symm hne

/-- What a registry of a given limit keeps: it holds at most that many sessions, those that were
made and not taken out, each under its own number and in a phase whose entries go together; the
numbers count the sessions that were made; and each session has told of its end once if it has
ended, and no session more than once. -/
structure Books (maxSessions : Nat) (h : History ε) : Prop where
  limit : h.registry.maxSessions = maxSessions
  capacity : h.registry.sessions.length ≤ maxSessions
  created : h.created = List.range' 1 h.created.length
  next : h.registry.nextId = h.created.length + 1
  taken : ∀ id ∈ h.taken, id ∈ h.created
  held : h.registry.sessions.map (·.1) = h.created.filter (· ∉ h.taken)
  own : ∀ e ∈ h.registry.sessions, e.2.id = e.1
  wellFormed : ∀ e ∈ h.registry.sessions, e.2.phase.WellFormed
  told : ∀ n ∈ h.events, n.id ∈ h.created
  finished : ∀ e ∈ h.registry.sessions, finishesOf e.1 h.events = e.2.isTerminated.toNat
  once : ∀ id, finishesOf id h.events ≤ 1

namespace Books

variable {maxSessions : Nat} {h : History ε}

/-- The books of a registry with which nothing has been done. -/
theorem start (maxSessions : Nat) (options : SessionOptions) :
    Books maxSessions (History.start maxSessions options : History ε) where
  limit := rfl
  capacity := Nat.zero_le _
  created := rfl
  next := rfl
  taken := by simp [History.start]
  held := rfl
  own := by simp [History.start]
  wellFormed := by simp [History.start]
  told := by simp [History.start, History.events]
  finished := by simp [History.start]
  once := by simp [History.start, History.events, finishesOf, finishes]

/-- The numbers that were given out ascend. -/
theorem pairwise_created (hb : Books maxSessions h) : h.created.Pairwise (· < ·) := by
  rw [hb.created]
  exact List.pairwise_lt_range'

/-- The numbers of the sessions ascend. -/
theorem pairwise_held (hb : Books maxSessions h) :
    (h.registry.sessions.map (·.1)).Pairwise (· < ·) := by
  rw [hb.held]
  exact hb.pairwise_created.filter _

/-- No two sessions have the same number. -/
theorem nodup_held (hb : Books maxSessions h) : (h.registry.sessions.map (·.1)).Nodup :=
  hb.pairwise_held.imp Nat.ne_of_lt

/-- The next number has not been given out. -/
theorem nextId_notMem (hb : Books maxSessions h) : h.registry.nextId ∉ h.created := by
  rw [hb.created, hb.next, List.mem_range'_1]
  omega

/-- A session that is held was made. -/
theorem mem_created (hb : Books maxSessions h) {e : SessionId × Session ε}
    (he : e ∈ h.registry.sessions) : e.1 ∈ h.created := by
  have hmem : e.1 ∈ h.registry.sessions.map (·.1) := List.mem_map_of_mem he
  rw [hb.held] at hmem
  exact (List.mem_filter.1 hmem).1

/-- Nothing has been told of the end of a session that was not made. -/
theorem finishesOf_of_notMem (hb : Books maxSessions h) {id : SessionId} (hid : id ∉ h.created) :
    finishesOf id h.events = 0 := by
  have hnone : h.events.filter (fun n ↦ n.id = id) = [] := by
    refine List.filter_eq_nil_iff.2 fun n hn ↦ ?_
    rw [decide_eq_true_eq]
    rintro rfl
    exact hid (hb.told n hn)
  rw [finishesOf, hnone]
  rfl

/-- A session is made if there is room for it. -/
theorem create (hb : Books maxSessions h) (emulation : ε)
    (hroom : h.registry.sessions.length < maxSessions) :
    Books maxSessions { h with
      registry := { h.registry with
        sessions := h.registry.sessions ++
          [(h.registry.nextId, .new h.registry.nextId h.registry.options emulation)]
        nextId := h.registry.nextId + 1 }
      created := h.created ++ [h.registry.nextId] } where
  limit := hb.limit
  capacity := by
    rw [List.length_append]
    exact hroom
  created := by
    rw [List.length_append, List.length_singleton, List.range'_1_concat, ← hb.created, hb.next,
      Nat.add_comm 1]
  next := by
    rw [List.length_append, List.length_singleton, hb.next]
  taken := fun id hid ↦ List.mem_append_left _ (hb.taken id hid)
  held := by
    have hfresh : h.registry.nextId ∉ h.taken := fun hmem ↦ hb.nextId_notMem (hb.taken _ hmem)
    rw [List.map_append, hb.held, List.filter_append]
    simp [hfresh]
  own := by
    intro e he
    rcases List.mem_append.1 he with hold | hnew
    · exact hb.own e hold
    · rw [List.mem_singleton.1 hnew]
      rfl
  wellFormed := by
    intro e he
    rcases List.mem_append.1 he with hold | hnew
    · exact hb.wellFormed e hold
    · rw [List.mem_singleton.1 hnew]
      exact Phase.wellFormed_idle
  told := fun n hn ↦ List.mem_append_left _ (hb.told n hn)
  finished := by
    intro e he
    rcases List.mem_append.1 he with hold | hnew
    · exact hb.finished e hold
    · rw [List.mem_singleton.1 hnew]
      exact hb.finishesOf_of_notMem hb.nextId_notMem
  once := hb.once

/-- Sessions are let go of. -/
theorem letGo (hb : Books maxSessions h) {gone : List (SessionId × Session ε)} {r : Registry ε}
    (a : Answers) (hlimit : r.maxSessions = h.registry.maxSessions)
    (hnext : r.nextId = h.registry.nextId)
    (hsessions : r.sessions = h.registry.sessions.filter fun e ↦ e.1 ∉ gone.map (·.1))
    (hgone : ∀ e ∈ gone, e ∈ h.registry.sessions) : Books maxSessions (h.letGo gone r a) := by
  have hevents : (h.letGo gone r a).events = h.events := by
    have hdrop : notices ((gone.flatMap fun e ↦
        (e.2.drop a).map fun x ↦ (e.1, x)).map (·.2)) = [] := by
      refine Session.notices_eq_nil fun x hx ↦ ?_
      simp only [List.mem_map, List.mem_flatMap] at hx
      obtain ⟨_, ⟨e, -, y, hy, rfl⟩, rfl⟩ := hx
      exact List.filterMap_eq_nil_iff.1 (Session.notices_drop e.2 a) y hy
    rw [History.events, History.letGo, List.map_append, Session.notices_append, hdrop,
      List.append_nil]
    rfl
  have hsubset {e : SessionId × Session ε} (he : e ∈ r.sessions) : e ∈ h.registry.sessions := by
    rw [hsessions] at he
    exact (List.mem_filter.1 he).1
  refine ⟨hlimit.trans hb.limit, ?_, hb.created, hnext.trans hb.next, ?_, ?_, ?_, ?_, ?_, ?_, ?_⟩
  · show r.sessions.length ≤ maxSessions
    rw [hsessions]
    exact Nat.le_trans (List.length_filter_le _ _) hb.capacity
  · intro id hid
    rcases List.mem_append.1 hid with hold | hnew
    · exact hb.taken id hold
    · obtain ⟨e, he, rfl⟩ := List.mem_map.1 hnew
      exact hb.mem_created (hgone e he)
  · show r.sessions.map (·.1) = h.created.filter (· ∉ h.taken ++ gone.map (·.1))
    have hfilter : r.sessions.map (·.1) =
        (h.registry.sessions.map (·.1)).filter (· ∉ gone.map (·.1)) := by
      rw [hsessions, List.filter_map]
      rfl
    rw [hfilter, hb.held, List.filter_filter]
    refine List.filter_congr fun id _ ↦ ?_
    simp only [List.mem_append, not_or, Bool.decide_and]
    exact Bool.and_comm _ _
  · exact fun e he ↦ hb.own e (hsubset he)
  · exact fun e he ↦ hb.wellFormed e (hsubset he)
  · rw [hevents]
    exact hb.told
  · rw [hevents]
    exact fun e he ↦ hb.finished e (hsubset he)
  · rw [hevents]
    exact hb.once

/-- An operation goes on with one session. -/
theorem take [Emulation ε] {d : Shutdown ε} (hb : Books maxSessions (h.after d)) {id : SessionId}
    {s : Session ε} (hs : d.registry.get? id = some s) (m : Session.Move)
    (waiting : Option Session.Wait) :
    Books maxSessions (h.after (d.take id (m.act s waiting))) := by
  have hmem : (id, s) ∈ d.registry.sessions := mem_of_get? hs
  have hwellFormed : s.phase.WellFormed := hb.wellFormed _ hmem
  have hreports := Session.reports_act hwellFormed m waiting
  have hid : s.id = id := hb.own _ hmem
  have hown : ∀ n ∈ notices (m.act s waiting).trace, n.id = id :=
    fun n hn ↦ (hreports.own n hn).trans hid
  have hevents : (h.after (d.take id (m.act s waiting))).events =
      (h.after d).events ++ notices (m.act s waiting).trace := by
    simp only [History.events, History.after, Shutdown.take, List.map_append, List.map_map,
      Session.notices_append, List.append_assoc, Function.comp_def, List.map_id']
  have hself : finishesOf id (h.after (d.take id (m.act s waiting))).events =
      (m.act s waiting).session.isTerminated.toNat := by
    rw [hevents, finishesOf_append, finishesOf_self hown, ← hreports.finishes, Nat.add_comm]
    exact congrArg _ (hb.finished _ hmem)
  have hother {other : SessionId} (hne : other ≠ id) :
      finishesOf other (h.after (d.take id (m.act s waiting))).events =
        finishesOf other (h.after d).events := by
    rw [hevents, finishesOf_append, finishesOf_of_ne hown hne, Nat.add_zero]
  have hset {e : SessionId × Session ε}
      (he : e ∈ (d.registry.set id (m.act s waiting).session).sessions) :
      e = (id, (m.act s waiting).session) ∨ e.1 ≠ id ∧ e ∈ d.registry.sessions := by
    obtain ⟨f, hf, rfl⟩ := List.mem_map.1 he
    split
    · exact .inl rfl
    · next hne => exact .inr ⟨hne, hf⟩
  refine ⟨hb.limit, ?_, hb.created, hb.next, hb.taken, ?_, ?_, ?_, ?_, ?_, ?_⟩
  · show ((d.registry.set id _).sessions).length ≤ maxSessions
    rw [set, List.length_map]
    exact hb.capacity
  · exact (ids_set d.registry id _).trans hb.held
  · intro e he
    rcases hset he with rfl | ⟨-, hold⟩
    · exact hreports.id.trans hid
    · exact hb.own e hold
  · intro e he
    rcases hset he with rfl | ⟨-, hold⟩
    · exact Session.wellFormed_act hwellFormed m waiting
    · exact hb.wellFormed e hold
  · intro n hn
    rw [hevents] at hn
    rcases List.mem_append.1 hn with hold | hnew
    · exact hb.told n hold
    · rw [hown n hnew]
      exact hb.mem_created hmem
  · intro e he
    rcases hset he with rfl | ⟨hne, hold⟩
    · exact hself
    · rw [hother hne]
      exact hb.finished e hold
  · intro other
    by_cases hne : other = id
    · rw [hne, hself]
      exact Bool.toNat_le _
    · rw [hother hne]
      exact hb.once other

/-- What waits does not matter to the books. -/
theorem after_waits (hb : Books maxSessions h) (waits : List (SessionId × Session.Wait)) :
    Books maxSessions (h.after ⟨h.registry, waits, []⟩) := by
  have hevents : (h.after ⟨h.registry, waits, []⟩).events = h.events := by
    rw [History.events, History.after, List.append_nil]
    rfl
  exact ⟨hb.limit, hb.capacity, hb.created, hb.next, hb.taken, hb.held, hb.own, hb.wellFormed,
    hevents ▸ hb.told, hevents ▸ hb.finished, hevents ▸ hb.once⟩

/-- All sessions that run are asked to end. -/
theorem terminateAll [Emulation ε] (hb : Books maxSessions h) (a : Answers) :
    Books maxSessions (h.after (h.registry.terminateAll a)) := by
  suffices hfold : ∀ (rest : List (SessionId × Session ε)) (d : Shutdown ε),
      Books maxSessions (h.after d) → (rest.map (·.1)).Nodup →
      (∀ e ∈ rest, d.registry.get? e.1 = some e.2) →
      Books maxSessions (h.after (rest.foldl
        (fun d e ↦ if e.2.isRunning then d.take e.1 (e.2.terminate a) else d) d)) from
    hfold h.registry.sessions _ (hb.after_waits []) hb.nodup_held
      fun e he ↦ get?_of_mem hb.nodup_held he
  intro rest
  induction rest with
  | nil => exact fun d hd _ _ ↦ hd
  | cons e rest ih =>
    intro d hd hnodup hfound
    obtain ⟨id, s⟩ := e
    obtain ⟨hnotMem, hrest⟩ := List.nodup_cons.1 hnodup
    rw [List.foldl_cons]
    dsimp only
    split
    · refine ih _ (hd.take (hfound (id, s) (by simp)) (.terminate a) none) hrest fun f hf ↦ ?_
      have hne : f.1 ≠ id := fun heq ↦ hnotMem (List.mem_map.2 ⟨f, hf, heq⟩)
      rw [← hfound f (List.mem_cons_of_mem _ hf)]
      exact get?_set_of_ne hne
    · exact ih d hd hrest fun f hf ↦ hfound f (List.mem_cons_of_mem _ hf)

/-- Sessions that have terminated are swept out. -/
theorem sweep (hb : Books maxSessions h) (a : Answers) :
    Books maxSessions (h.letGo h.registry.sweep.1 h.registry.sweep.2 a) := by
  refine hb.letGo a rfl rfl ?_ fun e he ↦ (List.mem_filter.1 he).1
  refine List.filter_congr fun e he ↦ ?_
  -- a session with the number of one that has terminated is that one
  have hiff : e.1 ∈ h.registry.sweep.1.map (·.1) ↔ e.2.isTerminated = true := by
    constructor
    · intro hmem
      obtain ⟨f, hf, hef⟩ := List.mem_map.1 hmem
      obtain ⟨hfmem, hterminated⟩ := List.mem_filter.1 hf
      have hfound := get?_of_mem hb.nodup_held he
      rw [← show f.1 = e.1 from hef, get?_of_mem hb.nodup_held hfmem] at hfound
      rwa [← Option.some.inj hfound]
    · exact fun hterminated ↦ List.mem_map_of_mem (List.mem_filter.2 ⟨he, hterminated⟩)
  rw [Bool.eq_iff_iff, decide_eq_true_eq, hiff]
  simp

/-- Every deed keeps the books. -/
theorem step [Emulation ε] (hb : Books maxSessions h) (deed : Deed ε) :
    Books maxSessions (h.step deed) := by
  cases deed with
  | create emulation =>
    rw [History.step_create, hb.limit]
    split
    · exact hb
    · next hroom => exact hb.create emulation (Nat.lt_of_not_le hroom)
  | remove id a =>
    simp only [History.step, Registry.remove]
    cases hfound : h.registry.get? id with
    | none => exact hb
    | some s =>
      refine hb.letGo a rfl rfl ?_ ?_
      · exact List.filter_congr fun e _ ↦ by simp
      · intro e he
        rw [List.mem_singleton.1 he]
        exact mem_of_get? hfound
  | sweep a => exact hb.sweep a
  | terminateAll a => exact hb.terminateAll a
  | on id m =>
    unfold History.step
    dsimp only
    split
    · next s hs => exact (hb.after_waits h.waits).take hs m _
    · exact hb

/-- The books are kept throughout. -/
theorem run [Emulation ε] (hb : Books maxSessions h) (deeds : List (Deed ε)) :
    Books maxSessions (h.run deeds) := by
  induction deeds generalizing h with
  | nil => exact hb
  | cons deed deeds ih => exact ih (hb.step deed)

end Books

/-- The list shows each session under its own number. -/
theorem map_id_summaries {r : Registry ε} (hown : ∀ e ∈ r.sessions, e.2.id = e.1) :
    r.summaries.map (·.id) = r.sessions.map (·.1) := by
  rw [summaries, List.map_map]
  exact List.map_congr_left hown

/-- What a registry is after anything was done with it, in any order and whatever overflows. It
holds the sessions that were made and not taken out, those that have terminated included, and never
more than its limit. A session is made exactly if there is room, and a failed attempt changes
nothing. The sessions that are made are numbered from 1 on without a gap, and each is held under its
own number. The list shows those that are held, in the order of their numbers, with a process while
a program is running and with an exit code when it has ended. All that is told over the channel
carries the number of a session that was made, and the end of each is told of at most once. -/
theorem registry_books [Emulation ε] (maxSessions : Nat) (options : SessionOptions)
    (deeds : List (Deed ε)) :
    let h := (History.start maxSessions options : History ε).run deeds
    let r := h.registry
    (r.sessions.length ≤ maxSessions ∧
      r.sessions.map (·.1) = h.created.filter (· ∉ h.taken)) ∧
    (∀ emulation : ε,
      if maxSessions ≤ r.sessions.length then
        r.create emulation = .error (.sessionLimit maxSessions) ∧ h.step (.create emulation) = h
      else ∃ q, r.create emulation = .ok (h.created.length + 1, q) ∧
        (h.step (.create emulation)).registry = q ∧
        (h.step (.create emulation)).created = h.created ++ [h.created.length + 1]) ∧
    h.created = List.range' 1 h.created.length ∧
    (∀ id s, r.get? id = some s → s.id = id ∧ id ∈ h.created ∧ id < r.nextId) ∧
    (r.summaries.map (·.id) = r.sessions.map (·.1) ∧
      (r.summaries.map (·.id)).Pairwise (· < ·) ∧
      ∀ u ∈ r.summaries, ∃ s, r.get? u.id = some s ∧ u.state = s.phase.state ∧
        u.pid = s.pid? ∧ u.exitCode = s.exitStatus?.map (·.code) ∧
        (u.pid.isSome = true ↔ s.isRunning = true) ∧
        (u.exitCode.isSome = true ↔ s.isTerminated = true)) ∧
    (∀ n ∈ h.events, n.id ∈ h.created) ∧
    ∀ id, finishesOf id h.events ≤ 1 := by
  intro h r
  have hb : Books maxSessions h := (Books.start maxSessions options).run deeds
  have hlist := map_id_summaries hb.own
  refine ⟨⟨hb.capacity, hb.held⟩, ?_, hb.created, ?_, ⟨hlist, ?_, ?_⟩, hb.told, hb.once⟩
  · intro emulation
    have hstep := History.step_create h emulation
    rw [hb.limit] at hstep
    split
    · next hfull =>
      rw [if_pos hfull] at hstep
      refine ⟨?_, hstep⟩
      rw [Registry.create, hb.limit, if_pos hfull]
    · next hroom =>
      rw [if_neg hroom] at hstep
      refine ⟨_, ?_, congrArg (·.registry) hstep, ?_⟩
      · have hbelow : ¬h.registry.maxSessions ≤ h.registry.sessions.length := by
          rw [hb.limit]
          exact hroom
        rw [← hb.next]
        exact if_neg hbelow
      · rw [hstep, hb.next]
  · intro id s hs
    have hmem := mem_of_get? hs
    have hcreated : id ∈ h.created := hb.mem_created hmem
    refine ⟨hb.own _ hmem, hcreated, ?_⟩
    rw [hb.created, List.mem_range'_1] at hcreated
    show id < h.registry.nextId
    rw [hb.next, Nat.add_comm]
    exact hcreated.2
  · rw [hlist]
    exact hb.pairwise_held
  · intro u hu
    obtain ⟨e, he, rfl⟩ := List.mem_map.1 hu
    have hs := hb.wellFormed e he
    refine ⟨e.2, ?_, rfl, rfl, rfl, ?_, ?_⟩
    · show r.get? e.2.id = some e.2
      rw [hb.own e he]
      exact get?_of_mem hb.nodup_held he
    · rw [← Session.isSome_running? hs]
      simp [Session.pid?]
    · rw [← Session.isSome_exitStatus? hs]
      simp

/-- With room for one session the second one is made after the first has ended and was swept out. -/
theorem registry_books_reused :
    let deeds : List (Deed Emulation.Discard) :=
      [.create .mk, .create .mk, .on 1 (.run "sh" {}), .terminateAll {},
        .on 1 (.happen (.exited (.signaled 15 false)) {}), .on 1 (.happen .endOfOutput {}),
        .create .mk, .sweep {}, .create .mk]
    let h := (History.start 1 {}).run deeds
    h.created = [1, 2] ∧ h.taken = [1] ∧ h.registry.sessions.map (·.1) = [2] ∧
      h.events = [.finished 1 (.signaled 15 false)] ∧
      (∀ n ∈ h.events, n.id ∈ h.created) ∧ ∀ id, finishesOf id h.events ≤ 1 := by
  intro deeds h
  obtain ⟨-, -, -, -, -, htold, honce⟩ := registry_books 1 {} deeds
  exact ⟨by decide, by decide, by decide, by decide, htold, honce⟩

end PtyHost.Registry
