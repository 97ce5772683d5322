import PtyHost.Broker.NodeTable

/-!
# Transfers are transactions

An attempt to grant or revoke changes the slave that it was made for as a whole or leaves the table
as it was. There is one exception: permissions that are refused, and an owner that cannot be put
back after that, leave the slave with its new owner and its old permissions.

Main statements: `answer_cases` on what one order does, and `node?_answerAll` on any number of them,
one after the other.
-/

namespace PtyHost.Broker

/-- Whether a change of permissions failed and the change of owner that is to undo the first one
failed too. -/
def strands : List (Call × Option OsError) → Bool
  | (.chmod .., some _) :: (.chown .., some _) :: _ => true
  | _ :: rest => strands rest
  | [] => false

/-- The slave that was granted or revoked, if one was. -/
def Attempt.transferred? {σ : Type} (a : Attempt σ) : Option Path :=
  match a.result with
  | .ok path => some path
  | .error _ => none

/-- What is asked of a table: who asks for which transfer, and which calls fail meanwhile. -/
structure Order where
  mode : Mode
  request : Request
  faults : Faults := {}

/-- The ownership that a slave has once the order is carried out. -/
def Order.target (o : Order) : Ownership :=
  .forMode o.mode o.request.realUid o.request.ttyGid

namespace NodeTable

/-- Answers an order. -/
def answer (t : NodeTable) (o : Order) : Attempt NodeTable := t.execute o.request o.faults o.mode

/-- The orders with the attempts to carry them out, one after the other. -/
def attempts (t : NodeTable) : List Order → List (Order × Attempt NodeTable)
  | [] => []
  | o :: rest => (o, t.answer o) :: (t.answer o).system.attempts rest

/-- The table after orders, one after the other. -/
def answerAll (t : NodeTable) (orders : List Order) : NodeTable :=
  orders.foldl (fun t o ↦ (t.answer o).system) t

/-- The ownership that the last of the attempts to succeed for a path was to give to it. -/
def lastTarget? (path : Path) : List (Order × Attempt NodeTable) → Option Ownership
  | [] => none
  | (o, a) :: rest =>
    (lastTarget? path rest).or (if a.transferred?.any (path.Same ·) then some o.target else none)

/-- The second table has the nodes of the first, of which one has another ownership. -/
structure ChangedAt (t u : NodeTable) (path : Path) (n : Node) (ownership : Ownership) : Prop where
  before : t.node? path = some n
  after : u.node? path = some { n with ownership }
  others : ∀ other : Path, ¬other.Same path → u.node? other = t.node? other

/-- What can become of the transfer of a node: it fails and the table is as it was, it succeeds and
the node has its new ownership, or it fails and the node has its new owner only. -/
inductive Transferred (t : NodeTable) (path : Path) (n : Node) (target : Ownership)
    (a : Attempt NodeTable) : Prop
  | undone (e : Error) (result : a.result = .error e) (whole : strands a.calls = false)
      (same : a.system.node? = t.node?)
  | done (result : a.result = .ok path) (whole : strands a.calls = false)
      (changed : t.ChangedAt a.system path n target)
  | stranded (e : Error) (result : a.result = .error e) (torn : strands a.calls = true)
      (changed : t.ChangedAt a.system path n { target with mode := n.ownership.mode })

/-- A change of ownership reaches a node that there is, and is no failure. -/
theorem changedAt_update {t : NodeTable} {path : Path} {n : Node} (change : Ownership → Ownership)
    (h : t.node? path = some n) :
    (t.update path change).1 = none ∧
      t.ChangedAt (t.update path change).2 path n (change n.ownership) := by
  refine ⟨?_, h, node?_update_self change h, fun _ hne ↦ node?_update_of_not_same change hne⟩
  simp [update, h]

/-- Two changes of one node are one change. -/
theorem ChangedAt.trans {t u v : NodeTable} {path : Path} {n : Node} {o p : Ownership}
    (h : t.ChangedAt u path n o) (k : u.ChangedAt v path { n with ownership := o } p) :
    t.ChangedAt v path n p :=
  ⟨h.before, k.after, fun other hne ↦ (k.others other hne).trans (h.others other hne)⟩

/-- Of a change only the nodes matter. -/
theorem ChangedAt.congr {s t u v : NodeTable} {path : Path} {n : Node} {o : Ownership}
    (h : s.ChangedAt u path n o) (hs : t.node? = s.node?) (hu : v.node? = u.node?) :
    t.ChangedAt v path n o :=
  ⟨by rw [hs, h.before], by rw [hu, h.after], fun other hne ↦ by rw [hs, hu, h.others other hne]⟩

/-- A node is found under every spelling of its path. -/
theorem node?_congr {t : NodeTable} {p q : Path} (h : p.Same q) : t.node? p = t.node? q := by
  refine congrArg t.nodes.find? (funext fun n ↦ decide_eq_decide.2 ?_)
  exact ⟨fun hn ↦ Eq.trans hn h, fun hn ↦ Eq.trans hn (Eq.symm h)⟩

/-- A node that changes to what it is leaves the table as it was. -/
theorem ChangedAt.node?_eq {t u : NodeTable} {path : Path} {n : Node}
    (h : t.ChangedAt u path n n.ownership) : u.node? = t.node? := by
  funext other
  by_cases hsame : other.Same path
  · rw [node?_congr hsame, node?_congr hsame, h.after, h.before]
  · exact h.others other hsame

/-- A change of owner fails and changes nothing, or reaches its node. -/
theorem chown_cases (r : Request) (f : Faults) {t : NodeTable} {path : Path} {n : Node}
    (uid gid : Nat) (h : t.node? path = some n) :
    let call := (system r f).chown t path uid gid
    (∃ e, call.1 = some e ∧ call.2.node? = t.node?) ∨
      (call.1 = none ∧ t.ChangedAt call.2 path n { n.ownership with uid, gid }) := by
  intro call
  have hc : call = if (if t.chowns = 0 then f.chown else f.undo)
      then (some .notPermitted, { t with chowns := t.chowns + 1 })
      else { t with chowns := t.chowns + 1 }.update path fun o ↦ { o with uid, gid } := rfl
  generalize (if t.chowns = 0 then f.chown else f.undo) = faulty at hc
  split at hc
  · exact .inl ⟨.notPermitted, by rw [hc], by rw [hc]; rfl⟩
  · obtain ⟨hok, hchanged⟩ := changedAt_update (t := { t with chowns := t.chowns + 1 })
      (fun o ↦ { o with uid, gid }) h
    rw [hc]
    exact .inr ⟨hok, h, hchanged.after, hchanged.others⟩

/-- A change of permissions fails and changes nothing, or reaches its node. -/
theorem chmod_cases (r : Request) (f : Faults) {t : NodeTable} {path : Path} {n : Node}
    (mode : Nat) (h : t.node? path = some n) :
    let call := (system r f).chmod t path mode
    (∃ e, call.1 = some e ∧ call.2.node? = t.node?) ∨
      (call.1 = none ∧ t.ChangedAt call.2 path n { n.ownership with mode }) := by
  intro call
  have hc : call = if f.chmod then (some .notPermitted, t)
      else t.update path fun o ↦ { o with mode } := rfl
  split at hc
  · exact .inl ⟨.notPermitted, by rw [hc], by rw [hc]⟩
  · obtain ⟨hok, hchanged⟩ := changedAt_update (fun o ↦ { o with mode }) h
    rw [hc]
    exact .inr ⟨hok, hchanged⟩

/-- The transfer of a node that there is. -/
theorem transferred_transfer (r : Request) (f : Faults) {t : NodeTable} {path : Path} {n : Node}
    (target : Ownership) (h : t.node? path = some n) :
    Transferred t path n target
      ((system r f).transfer path target (n.ownership.uid, n.ownership.gid) t) := by
  have hchown := chown_cases r f target.uid target.gid h
  unfold System.transfer
  rcases hown : (system r f).chown t path target.uid target.gid with ⟨ownError, owned⟩
  simp only [hown] at hchown ⊢
  obtain ⟨e, rfl, hsame⟩ | ⟨rfl, howned⟩ := hchown
  · exact .undone _ rfl rfl hsame
  have hchmod := chmod_cases r f target.mode howned.after
  rcases hmode : (system r f).chmod owned path target.mode with ⟨modeError, changed⟩
  simp only [hmode] at hchmod ⊢
  obtain ⟨e, rfl, hsame⟩ | ⟨rfl, hchanged⟩ := hchmod
  · -- What is left of the first change depends on whether it can be undone.
    have hundo := chown_cases r f n.ownership.uid n.ownership.gid (hsame ▸ howned.after)
    rcases hback : (system r f).chown changed path n.ownership.uid n.ownership.gid with
      ⟨undoError, undone⟩
    simp only [hback] at hundo ⊢
    obtain ⟨d, rfl, hkept⟩ | ⟨rfl, hundone⟩ := hundo
    · exact .stranded _ rfl rfl (howned.congr rfl (hkept.trans hsame))
    · exact .undone _ rfl rfl ((howned.congr rfl hsame).trans hundone).node?_eq
  · exact .done rfl rfl (howned.trans hchanged)

/-- Of a transfer only the nodes matter. -/
theorem Transferred.congr {s t : NodeTable} {path : Path} {n : Node} {target : Ownership}
    {a : Attempt NodeTable} (h : Transferred s path n target a) (hs : t.node? = s.node?) :
    Transferred t path n target a := by
  cases h with
  | undone e result whole same => exact .undone e result whole (same.trans hs.symm)
  | done result whole changed => exact .done result whole (changed.congr hs rfl)
  | stranded e result torn changed => exact .stranded e result torn (changed.congr hs rfl)

/-- What is called before a transfer does not matter to it, if nothing of it fails. -/
theorem Transferred.cons_call {t : NodeTable} {path : Path} {n : Node} {target : Ownership}
    {a : Attempt NodeTable} (h : Transferred t path n target a) (call : Call) :
    Transferred t path n target { a with calls := (call, none) :: a.calls } := by
  have hcons : strands ((call, none) :: a.calls) = strands a.calls := by cases call <;> rfl
  cases h with
  | undone e result whole same => exact .undone e result (hcons.trans whole) same
  | done result whole changed => exact .done result (hcons.trans whole) changed
  | stranded e result torn changed => exact .stranded e result (hcons.trans torn) changed

/-- An order is refused and the table is as it was, or its slave is a character device and is
transferred. -/
theorem answer_cases (t : NodeTable) (o : Order) :
    (∃ e, (t.answer o).result = .error e ∧ strands (t.answer o).calls = false ∧
      (t.answer o).system.node? = t.node?) ∨
    ∃ path n, o.request.effectiveUid = Ownership.rootUid ∧ o.request.slave = .ok path ∧
      t.node? path = some n ∧ n.isCharacterDevice = true ∧
      Transferred t path n o.target (t.answer o) := by
  unfold answer execute System.execute
  have hnode : { t with chowns := 0 }.node? = t.node? := rfl
  split
  · exact .inl ⟨_, rfl, rfl, hnode⟩
  next heuid =>
  split
  · exact .inl ⟨_, rfl, rfl, hnode⟩
  next path hslave =>
  split
  · exact .inl ⟨_, rfl, rfl, hnode⟩
  next hdevice =>
  split
  · exact .inl ⟨_, rfl, rfl, hnode⟩
  next prior hprior =>
  have hany : (t.node? path).any (·.isCharacterDevice) = true := by
    simpa [system, hnode] using hdevice
  obtain ⟨n, hn, hchar⟩ := (Option.any_eq_true _ _).1 hany
  obtain rfl : (n.ownership.uid, n.ownership.gid) = prior := by
    have howner : (system o.request o.faults).owner { t with chowns := 0 } path =
        if o.faults.owner then .error .notPermitted
        else .ok (n.ownership.uid, n.ownership.gid) := by
      simp [system, owner, hnode, hn]
    rw [howner] at hprior
    split at hprior
    · cases hprior
    · exact Except.ok.inj hprior
  refine .inr ⟨path, n, Decidable.not_not.1 heuid, hslave, hn, hchar, ?_⟩
  exact ((transferred_transfer o.request o.faults o.target (hnode ▸ hn)).congr hnode.symm).cons_call
    (.owner path)

/-- An attempt that leaves nothing torn makes of a node what it was to make of it, if it succeeds
for that node, and else nothing. -/
theorem node?_answer {t : NodeTable} {o : Order} (h : strands (t.answer o).calls = false)
    (path : Path) :
    (t.answer o).system.node? path = (t.node? path).map fun n ↦
      { n with ownership :=
        if (t.answer o).transferred?.any (path.Same ·) then o.target else n.ownership } := by
  obtain ⟨e, hresult, -, hsame⟩ | ⟨slave, n, -, -, hn, -, htransfer⟩ := t.answer_cases o
  · simp [Attempt.transferred?, hresult, hsame]
  cases htransfer with
  | undone e result whole same => simp [Attempt.transferred?, result, same]
  | done result whole changed =>
    by_cases hpath : path.Same slave
    · simp [Attempt.transferred?, result, node?_congr hpath, changed.after, hn, hpath]
    · simp [Attempt.transferred?, result, changed.others path hpath, hpath]
  | stranded e result torn changed => simp [h] at torn

/-- Attempts that leave nothing torn make of a node what the last of them that succeeded for it was
to make of it. -/
theorem node?_answerAll {t : NodeTable} {orders : List Order}
    (h : ∀ a ∈ t.attempts orders, strands a.2.calls = false) (path : Path) :
    (t.answerAll orders).node? path = (t.node? path).map fun n ↦
      { n with ownership := (lastTarget? path (t.attempts orders)).getD n.ownership } := by
  induction orders generalizing t with
  | nil => simp [answerAll, attempts, lastTarget?]
  | cons o rest ih =>
    have hfirst : strands (t.answer o).calls = false := h (o, t.answer o) List.mem_cons_self
    have hrest : ∀ a ∈ (t.answer o).system.attempts rest, strands a.2.calls = false :=
      fun a ha ↦ h a (List.mem_cons_of_mem _ ha)
    have hstep : t.answerAll (o :: rest) = (t.answer o).system.answerAll rest := rfl
    rw [hstep, ih hrest, node?_answer hfirst, Option.map_map]
    congr 1
    funext n
    simp only [attempts, lastTarget?, Function.comp]
    cases lastTarget? path ((t.answer o).system.attempts rest) with
    | some target => rfl
    | none => cases (t.answer o).transferred?.any (path.Same ·) <;> rfl

/-- An attempt that succeeds was made by root for a character device, which has the ownership that
was asked for; nothing else has changed. One that fails has changed nothing, unless the change of
owner could not be undone, and then only the owner of the slave has changed. After any number of
attempts that leave nothing torn, every node is what the last one that succeeded for it made of
it. -/
theorem answer_transaction :
    (∀ (t : NodeTable) (o : Order),
      (∀ path, (t.answer o).result = .ok path →
        o.request.slave = .ok path ∧ o.request.effectiveUid = Ownership.rootUid ∧
        ∃ n, n.isCharacterDevice = true ∧ t.ChangedAt (t.answer o).system path n o.target) ∧
      (∀ e, (t.answer o).result = .error e → strands (t.answer o).calls = false →
        (t.answer o).system.node? = t.node?) ∧
      ∀ e, (t.answer o).result = .error e → strands (t.answer o).calls = true →
        ∃ path n, o.request.slave = .ok path ∧
          t.ChangedAt (t.answer o).system path n { o.target with mode := n.ownership.mode }) ∧
    ∀ (t : NodeTable) (orders : List Order),
      (∀ a ∈ t.attempts orders, strands a.2.calls = false) → ∀ path,
        (t.answerAll orders).node? path = (t.node? path).map fun n ↦
          { n with ownership := (lastTarget? path (t.attempts orders)).getD n.ownership } := by
  refine ⟨fun t o ↦ ?_, fun t orders h path ↦ node?_answerAll h path⟩
  obtain ⟨e, hresult, hwhole, hsame⟩ | ⟨slave, n, heuid, hslave, hn, hchar, htransfer⟩ :=
    t.answer_cases o
  · simp [hresult, hwhole, hsame]
  cases htransfer with
  | undone e result whole same => simp [result, whole, same]
  | done result whole changed =>
    refine ⟨fun path hpath ↦ ?_, by simp [result], by simp [result]⟩
    obtain rfl : slave = path := Except.ok.inj (result.symm.trans hpath)
    exact ⟨hslave, heuid, n, hchar, changed⟩
  | stranded e result torn changed =>
    refine ⟨by simp [result], by simp [torn], fun _ _ _ ↦ ⟨slave, n, hslave, changed⟩⟩

/-- All four cases, on a table with one terminal that root owns. -/
theorem answer_transaction_root :
    let path : Path := ⟨Bytes.ofAscii "/dev/pts/3"⟩
    let t : NodeTable := { nodes := [⟨path, .neutral 5, true⟩] }
    let order (mode : Mode) (faults : Faults) : Order := ⟨mode, ⟨0, 1000, 5, .ok path⟩, faults⟩
    let torn := order .grant { chmod := true, undo := true }
    let orders := [order .grant {}, order .revoke { chmod := true }]
    ((t.answer (order .grant {})).result = .ok path ∧
      ∃ n, n.isCharacterDevice = true ∧
        t.ChangedAt (t.answer (order .grant {})).system path n ⟨1000, 5, 0o620⟩) ∧
    (t.answer (order .grant { chmod := true })).system.node? = t.node? ∧
    (strands (t.answer torn).calls = true ∧ ∃ p n, torn.request.slave = .ok p ∧
      t.ChangedAt (t.answer torn).system p n { torn.target with mode := n.ownership.mode }) ∧
    (∀ a ∈ t.attempts orders, strands a.2.calls = false) ∧
    (t.answerAll orders).node? path = some ⟨path, ⟨1000, 5, 0o620⟩, true⟩ := by
  intro path t order torn orders
  have hwhole : ∀ a ∈ t.attempts orders, strands a.2.calls = false := by decide
  obtain ⟨hone, hmany⟩ := answer_transaction
  refine ⟨⟨rfl, ((hone t (order .grant {})).1 path rfl).2.2⟩, ?_, ⟨rfl, ?_⟩, hwhole, ?_⟩
  · exact (hone t (order .grant { chmod := true })).2.1 _ rfl rfl
  · exact (hone t torn).2.2 _ rfl rfl
  · exact (hmany t orders hwhole path).trans (by decide)

end NodeTable

end PtyHost.Broker
