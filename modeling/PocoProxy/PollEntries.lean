/-
What the poll set holds.

`PollSetImpl` finds its entries by the descriptor that a socket has at the moment.
`Close` closes both sockets, which sets their descriptors to the invalid value,
before the destructor takes the handlers out; so `remove` looks for the invalid
descriptor and the entries of the session stay (`pollSet_exact_iff`).

`Watches` says that a poll set watches exactly the pairs of a descriptor and a
socket that a relation has. Making the set ready and adding a socket keep it;
removing a closed socket leaves the map as it was.
-/
import PocoProxy.ReactorRun

set_option autoImplicit false

namespace PocoProxy.PollSet

open PocoProxy.Socket

/-! ## Poll sets -/

/-- The map has exactly the pairs of `W`, and the other two parts have no others. -/
structure Watches (p : PollSetImpl) (W : Fd → SocketId → Prop) : Prop where
  socketMap : ∀ fd s, p.socketMap.lookup fd = some s ↔ W fd s
  addMap : ∀ fd a, p.addMap.lookup fd = some a → W fd a.owner
  pollfds : ∀ e ∈ p.pollfds, W e.fd e.owner

namespace Watches

variable {p : PollSetImpl} {W W' : Fd → SocketId → Prop}

theorem congr (h : Watches p W) (hW : ∀ fd s, W fd s ↔ W' fd s) : Watches p W' where
  socketMap fd s := (h.socketMap fd s).trans (hW fd s)
  addMap fd a ha := (hW fd _).mp (h.addMap fd a ha)
  pollfds e he := (hW _ _).mp (h.pollfds e he)

theorem prepare (h : Watches p W) : Watches p.prepare W where
  socketMap := h.socketMap
  addMap fd a ha := by cases ha
  pollfds e he := by
    rcases List.mem_append.mp he with he | he
    · exact h.pollfds e (List.mem_filter.mp he).1
    · obtain ⟨a, ha, rfl⟩ := List.mem_map.mp he
      exact h.addMap a.1 a.2 (AList.mem_lookup_iff.mpr ha)

/-- A socket is added whose descriptor watches for nothing else. -/
theorem add (h : Watches p W) (socket : SocketImpl) (mode : PollMode)
    (hfree : ∀ s, W socket.sockfd s → s = socket.id) :
    Watches (p.add socket mode) (fun fd s => W fd s ∨ fd = socket.sockfd ∧ s = socket.id) := by
  refine ⟨?_, ?_, ?_⟩
  · intro fd s
    change (p.socketMap.insert socket.sockfd socket.id).lookup fd = some s ↔ _
    by_cases e : fd = socket.sockfd
    · rw [e, AList.lookup_insert, Option.some.injEq]
      constructor
      · intro hs
        exact .inr ⟨rfl, hs.symm⟩
      · rintro (hW | ⟨-, hs⟩)
        · exact (hfree s hW).symm
        · exact hs.symm
    · -- another descriptor keeps what it has
      rw [AList.lookup_insert_ne e, h.socketMap]
      constructor
      · exact .inl
      · rintro (hW | ⟨heq, -⟩)
        · exact hW
        · exact absurd heq e
  · intro fd a ha
    change (p.addMap.insert socket.sockfd ⟨mode, socket.id⟩).lookup fd = some a at ha
    by_cases e : fd = socket.sockfd
    · rw [e, AList.lookup_insert, Option.some.injEq] at ha
      exact .inr ⟨e, ha ▸ rfl⟩
    · rw [AList.lookup_insert_ne e] at ha
      exact .inl (h.addMap fd a ha)
  · intro e he
    exact .inl (h.pollfds e he)

/-- Adding it again changes nothing of that. -/
theorem add_again (h : Watches p W) (socket : SocketImpl) (mode : PollMode)
    (hin : W socket.sockfd socket.id) : Watches (p.add socket mode) W := by
  have hfree : ∀ s, W socket.sockfd s → s = socket.id := by
    intro s hs
    rw [← h.socketMap] at hs hin
    rw [hs, Option.some.injEq] at hin
    exact hin
  apply (h.add socket mode hfree).congr
  intro fd s
  constructor
  · rintro (hW | ⟨rfl, rfl⟩)
    · exact hW
    · exact hin
  · exact .inl

/-- The set holds exactly the descriptors of the relation. -/
theorem holds_iff (h : Watches p W) (fd : Fd) : p.Holds fd ↔ ∃ s, W fd s := by
  constructor
  · rintro (hmap | hadd | ⟨e, he, rfl⟩)
    · obtain ⟨s, hs⟩ := Option.isSome_iff_exists.mp (AList.lookup_isSome.mpr hmap)
      exact ⟨s, (h.socketMap fd s).mp hs⟩
    · obtain ⟨a, ha⟩ := Option.isSome_iff_exists.mp (AList.lookup_isSome.mpr hadd)
      exact ⟨a.owner, h.addMap fd a ha⟩
    · exact ⟨e.owner, h.pollfds e he⟩
  · rintro ⟨s, hs⟩
    rw [← h.socketMap] at hs
    exact .inl (AList.lookup_isSome.mp (by rw [hs]; rfl))

end Watches

end PocoProxy.PollSet

namespace PocoProxy.Reactor

open PocoProxy.Socket PocoProxy.PollSet PocoProxy.Registry

/-! ## What the reactor does to it -/

/-- The notifications that a poll mode asks for. -/
def NotificationKind.polled : NotificationKind → Bool
  | .readable => true
  | .writable => true
  | .error => true
  | _ => false

theorem getOrMakeNotifier_pollSet (r : SocketReactor) (s : SocketId) :
    (r.getOrMakeNotifier s).2.pollSet = r.pollSet := by
  unfold SocketReactor.getOrMakeNotifier
  split <;> rfl

theorem addEventHandler_pollSet (r : SocketReactor) (socket : SocketImpl) (t : Target) :
    (r.addEventHandler socket t).pollSet = r.pollSet ∨
      ∃ mode, (r.addEventHandler socket t).pollSet = r.pollSet.add socket mode := by
  have hmake := getOrMakeNotifier_pollSet r socket.id
  unfold SocketReactor.addEventHandler
  rcases hr₁ : r.getOrMakeNotifier socket.id with ⟨p, r₁⟩
  rw [hr₁] at hmake
  dsimp only at hmake ⊢
  have hmode : ∀ r' : SocketReactor, r'.pollSet = r.pollSet → ∀ mode : PollMode,
      (if mode.nonzero = true then { r' with pollSet := r'.pollSet.add socket mode }
        else r').pollSet = r.pollSet ∨
      ∃ mode', (if mode.nonzero = true then { r' with pollSet := r'.pollSet.add socket mode }
        else r').pollSet = r.pollSet.add socket mode' := by
    intro r' hr' mode
    split
    · right
      rw [← hr']
      exact ⟨mode, rfl⟩
    · exact .inl hr'
  by_cases hobs : (r₁.notifiers p).hasObserver t = true
  · rw [if_pos hobs]
    exact hmode r₁ hmake _
  · rw [if_neg hobs]
    exact hmode (r₁.addObserver p t) hmake _

/-- A new observer makes the mode of its socket contain what it waits for. -/
theorem addObserver_nonzero (n : SocketNotifier) (o : Observer)
    (hkind : o.target.method.kind.polled = true) : (n.addObserver o).mode.nonzero = true := by
  unfold SocketNotifier.mode PollMode.nonzero SocketNotifier.accepts SocketNotifier.addObserver
  cases hk : o.target.method.kind
  case readable => simp [SocketNotifier.counted]
  case writable => simp [SocketNotifier.counted]
  case error => simp [SocketNotifier.counted]
  all_goals
    rw [hk] at hkind
    cases hkind

/-- The first handler of a socket puts the socket into the poll set, if it waits for
something that is polled. -/
theorem addEventHandler_adds {r : SocketReactor} (h : Wf r) (socket : SocketImpl) {t : Target}
    (hnew : t ∉ targets r socket.id) (hkind : t.method.kind.polled = true) :
    ∃ mode, (r.addEventHandler socket t).pollSet = r.pollSet.add socket mode := by
  obtain ⟨hspec, hp⟩ := getOrMakeNotifier_spec h socket.id
  have hmake := getOrMakeNotifier_pollSet r socket.id
  unfold SocketReactor.addEventHandler
  rcases hr₁ : r.getOrMakeNotifier socket.id with ⟨p, r₁⟩
  rw [hr₁] at hmake hspec hp
  dsimp only at hmake hspec hp ⊢
  have hno : ¬ (r₁.notifiers p).hasObserver t = true := by
    rw [hasObserver_iff, ← targets_of_some hp, hspec.view]
    exact hnew
  rw [if_neg hno, addObserver_notifiers, Function.update_self,
    if_pos (addObserver_nonzero _ _ hkind), ← hmake]
  exact ⟨_, rfl⟩

/-- Taking a handler out concerns the entry of the descriptor that the socket has
then, and no other. -/
theorem removeEventHandler_socketMap (r : SocketReactor) {socket : SocketImpl} {fd : Fd}
    (hfd : fd ≠ socket.sockfd) (t : Target) :
    (r.removeEventHandler socket t).pollSet.socketMap.lookup fd
      = r.pollSet.socketMap.lookup fd := by
  have hremove : ((r.pollSet.remove socket).socketMap).lookup fd = r.pollSet.socketMap.lookup fd :=
    AList.lookup_erase_ne hfd
  have hremoval := removeEventHandler_removal r socket t
  generalize r.removeEventHandler socket t = r' at hremoval ⊢
  cases hremoval with
  | unregistered hs => rfl
  | unobserved hs hobs => rfl
  | last hs hobs hone hpoll =>
      rcases hpoll with rfl | ⟨mode, rfl⟩
      · exact hremove
      · exact hremove
  | further hs hobs hone hpoll =>
      rcases hpoll with rfl | ⟨mode, rfl⟩
      · rfl
      · rfl

end PocoProxy.Reactor

namespace PocoProxy.Session

open PocoProxy.Socket PocoProxy.PollSet PocoProxy.Registry PocoProxy.Reactor

/-- `RegisterHandler`, for one of the two sockets. -/
theorem addHandlers_watches {r : SocketReactor} (h : Wf r) {W : Fd → SocketId → Prop}
    (hw : Watches r.pollSet W) (socket : SocketImpl) (object : ObjectId) (m : Method)
    (ms : List Method) (hkind : m.kind.polled = true) (hnew : targets r socket.id = [])
    (hfree : ∀ s, ¬ W socket.sockfd s) :
    Watches (addHandlers r socket object (m :: ms)).pollSet
      (fun fd s => W fd s ∨ fd = socket.sockfd ∧ s = socket.id) := by
  have hfirst : Watches (r.addEventHandler socket ⟨object, m⟩).pollSet
      (fun fd s => W fd s ∨ fd = socket.sockfd ∧ s = socket.id) := by
    obtain ⟨mode, hmode⟩ := addEventHandler_adds (t := ⟨object, m⟩) h socket
      (by rw [hnew]; exact List.not_mem_nil) hkind
    rw [hmode]
    exact hw.add socket mode fun s hs => absurd hs (hfree s)
  -- the further handlers find the entry there
  have hrest : ∀ (ms : List Method) (r' : SocketReactor) (W' : Fd → SocketId → Prop),
      Watches r'.pollSet W' → W' socket.sockfd socket.id →
        Watches (addHandlers r' socket object ms).pollSet W' := by
    intro ms
    induction ms with
    | nil => exact fun _ _ hw' _ => hw'
    | cons m ms ih =>
        intro r' W' hw' hin
        refine ih _ W' ?_ hin
        rcases addEventHandler_pollSet r' socket ⟨object, m⟩ with heq | ⟨mode, heq⟩
        · rw [heq]
          exact hw'
        · rw [heq]
          exact hw'.add_again socket mode hin
  exact hrest ms _ _ hfirst (.inr ⟨rfl, rfl⟩)

/-- `UnregisterHandler`, for one of the two sockets. -/
theorem removeHandlers_socketMap (r : SocketReactor) {socket : SocketImpl} {fd : Fd}
    (hfd : fd ≠ socket.sockfd) (object : ObjectId) (ms : List Method) :
    (removeHandlers r socket object ms).pollSet.socketMap.lookup fd
      = r.pollSet.socketMap.lookup fd := by
  induction ms generalizing r with
  | nil => rfl
  | cons m ms ih => exact (ih _).trans (removeEventHandler_socketMap r hfd _)

/-- **What `Close` leaves in the poll set**: every entry there was, except for one of
the invalid descriptor. -/
theorem torn_socketMap (w : World) {fd : Fd} (hfd : fd ≠ POCO_INVALID_SOCKET) :
    w.torn.reactor.pollSet.socketMap.lookup fd = w.reactor.pollSet.socketMap.lookup fd := by
  rw [World.torn, removeHandlers_socketMap _ hfd, removeHandlers_socketMap _ hfd]

end PocoProxy.Session

namespace PocoProxy.ReactorLoop

open PocoProxy.Program PocoProxy.Socket PocoProxy.PollSet PocoProxy.Registry PocoProxy.Reactor
open PocoProxy.Session PocoProxy.Runs

/-! ## The property -/

namespace Machine

/-- No entry is left that was made for a socket of a session that has been deleted. -/
def NoStale (m : Machine) : Prop :=
  ∀ c ∈ m.sessions, c.deletions ≠ 0 →
    ∀ d, ¬ m.reactor.pollSet.HoldsFor (c.session.socket d).id

/-- The session exists and has been registered. -/
def Live (m : Machine) (c : Cell) : Prop :=
  c.deletions = 0 ∧ targets m.reactor c.session.m_front.id ≠ []

/-- The poll set holds exactly the descriptors of the listening socket and of the
sockets of the live sessions. -/
def Exact (m : Machine) : Prop :=
  ∀ fd, m.reactor.pollSet.Holds fd ↔
    fd = m.server.sockfd ∨ ∃ c ∈ m.sessions, m.Live c ∧ ∃ d, (c.session.socket d).sockfd = fd

end Machine

/-! ## As long as no session has been closed -/

/-- The pairs that should be watched. -/
def Watched (m : Machine) (fd : Fd) (s : SocketId) : Prop :=
  (fd = m.server.sockfd ∧ s = m.server.id) ∨
    ∃ (i : ℕ) (f : Face) (d : Side), m.faces[i]? = some f ∧
      targets m.reactor (f.socket .front) ≠ [] ∧ fd = f.sockfd d ∧ s = f.socket d

/-- What holds until a `Close` completes. -/
structure Undisturbed (m : Machine) : Prop where
  safe : m.Safe
  alive : ∀ f ∈ m.faces, f.deletions = 0
  watches : Watches m.reactor.pollSet (Watched m)
  front_open : ∀ f ∈ m.faces, f.sockfd .front ≠ POCO_INVALID_SOCKET

theorem watched_congr {m m' : Machine} (hserver : m'.server = m.server)
    (hfaces : m'.faces = m.faces) (htargets : targets m'.reactor = targets m.reactor) (fd : Fd)
    (s : SocketId) : Watched m fd s ↔ Watched m' fd s := by
  unfold Watched
  rw [hserver, hfaces, htargets]

/-- A descriptor that is watched is in use. -/
theorem watched_open {m : Machine} {fd : Fd} {s : SocketId} (h : Watched m fd s) :
    fd ∈ m.openFds := by
  rcases h with ⟨rfl, -⟩ | ⟨i, f, d, hf, -, rfl, -⟩
  · exact List.mem_cons_self
  · obtain ⟨c, hc, rfl⟩ := Option.map_eq_some_iff.mp ((List.getElem?_map).symm.trans hf)
    apply List.mem_cons_of_mem
    apply List.mem_flatMap.mpr
    refine ⟨c, List.mem_of_getElem? hc, ?_⟩
    cases d
    · exact List.mem_cons_self
    · exact List.mem_cons_of_mem _ List.mem_cons_self

/-- A session that the reactor does not know adds nothing to watch. -/
theorem watched_unregistered {m m' : Machine} (h : m.Safe) {f : Face}
    (hserver : m'.server = m.server) (hfront : m.nextSocket ≤ f.socket .front)
    (hfaces : m'.faces = m.faces ++ [f]) (hreactor : m'.reactor = m.reactor) (fd : Fd)
    (s : SocketId) : Watched m fd s ↔ Watched m' fd s := by
  have hnone : targets m.reactor (f.socket .front) = [] := h.targets_new hfront
  unfold Watched
  rw [hserver, hfaces, hreactor]
  constructor
  · rintro (hs | ⟨i, g, d, hg, hrest⟩)
    · exact .inl hs
    · rw [← List.getElem?_append_left (List.getElem?_eq_some_iff.mp hg).1] at hg
      exact .inr ⟨i, g, d, hg, hrest⟩
  · rintro (hs | ⟨i, g, d, hg, hne, hrest⟩)
    · exact .inl hs
    · rcases getElem?_concat hg with hg | ⟨-, rfl⟩
      · exact .inr ⟨i, g, d, hg, hne, hrest⟩
      · exact absurd hnone hne

/-- A session that has been registered adds its two sockets. -/
theorem watched_registered {m m' : Machine} (h : m.Safe) {f : Face}
    (hserver : m'.server = m.server) (hnew : Layout.New m.nextSocket m.faces.length f)
    (hfaces : m'.faces = m.faces ++ [f])
    (hold : ∀ s, s < m.nextSocket → targets m'.reactor s = targets m.reactor s)
    (hown : targets m'.reactor (f.socket .front) ≠ []) (fd : Fd) (s : SocketId) :
    (Watched m fd s ∨ fd = f.sockfd .front ∧ s = f.socket .front) ∨
        fd = f.sockfd .back ∧ s = f.socket .back ↔ Watched m' fd s := by
  unfold Watched
  rw [hserver, hfaces]
  have hlast : (m.faces ++ [f])[m.faces.length]? = some f := List.getElem?_concat_length
  constructor
  · rintro (((hs | ⟨i, g, d, hg, hne, hrest⟩) | hs) | hs)
    · exact .inl hs
    · -- a session that was there has smaller names than the new one
      have hlt := (h.socket_lt i g .front hg).2
      rw [← hold _ hlt] at hne
      rw [← List.getElem?_append_left (List.getElem?_eq_some_iff.mp hg).1] at hg
      exact .inr ⟨i, g, d, hg, hne, hrest⟩
    · exact .inr ⟨_, f, .front, hlast, hown, hs⟩
    · exact .inr ⟨_, f, .back, hlast, hown, hs⟩
  · rintro (hs | ⟨i, g, d, hg, hne, hrest⟩)
    · exact .inl (.inl (.inl hs))
    · rcases getElem?_concat hg with hg | ⟨-, rfl⟩
      · have hlt := (h.socket_lt i g .front hg).2
        rw [hold _ hlt] at hne
        exact .inl (.inl (.inr ⟨i, g, d, hg, hne, hrest⟩))
      · cases d with
        | front => exact .inl (.inr hrest)
        | back => exact .inr hrest

/-- The two descriptors of a session that `RegisterHandler` has registered. -/
theorem watched_started {m m' : Machine} (h : m.Safe) {a : Accepted} {status : ConnectStatus}
    {service : Option ServiceKind} {w : World}
    (hw : w = started a.setup.backFd status service (.session m.sessions.length)
      (m.acceptConnection a.sockfd) (m.nextSocket + 1) m.reactor)
    (hserver : m'.server = m.server) (hfaces : m'.faces = m.faces ++ [(Cell.ofWorld w).face])
    (hreactor : m'.reactor = w.reactor) (fd : Fd) (s : SocketId) :
    (Watched m fd s ∨ fd = a.sockfd ∧ s = m.nextSocket) ∨
        fd = a.setup.backFd ∧ s = m.nextSocket + 1 ↔ Watched m' fd s := by
  subst hw
  have hlength : m.faces.length = m.sessions.length := List.length_map _
  have hview := (h.started_becomes a.sockfd a.setup.backFd status service
    (.session m.sessions.length)).view
  rw [← hreactor] at hview
  refine watched_registered h hserver ⟨hlength ▸ rfl, rfl, rfl, rfl, rfl⟩ hfaces ?_ ?_ fd s
  · -- the sockets that were there before are not touched
    intro s hs
    rw [hview, update_pair_of_lt hs]
  · have hfront : targets m'.reactor m.nextSocket
        = sideTargets (.session m.sessions.length) .front := by rw [hview, update_pair_front]
    intro hnil
    cases hfront.symm.trans hnil

namespace Undisturbed

variable {m m' : Machine}

/-- `RegisterHandler` puts the two descriptors into the poll set. -/
theorem started_watches (h : Undisturbed m) {a : Accepted} (hok : AcceptOk m a)
    {status : ConnectStatus} (hconnect : a.setup.connect = .ok status)
    (service : Option ServiceKind) (this : ObjectId) :
    Watches (started a.setup.backFd status service this (m.acceptConnection a.sockfd)
        (m.nextSocket + 1) m.reactor).reactor.pollSet
      (fun fd s => (Watched m fd s ∨ fd = a.sockfd ∧ s = m.nextSocket) ∨
        fd = a.setup.backFd ∧ s = m.nextSocket + 1) := by
  obtain ⟨⟨-, hfresh⟩, hback, hrest⟩ := hok
  rw [hconnect] at hrest
  obtain ⟨⟨-, hfresh'⟩, hne⟩ := hback hrest.1
  have hfree : targets m.reactor m.nextSocket = [] := h.safe.targets_new le_rfl
  have hfree' : targets m.reactor (m.nextSocket + 1) = [] := h.safe.targets_new (Nat.le_succ _)
  have hspec := addHandlers_new (s := m.nextSocket) h.safe.wf (m.acceptConnection a.sockfd) rfl
    this frontMethods (by decide) hfree
  have hfront := addHandlers_watches h.safe.wf h.watches (m.acceptConnection a.sockfd) this
    .onFrontReadable [.onFrontShutdown, .onFrontError] rfl hfree
    (fun s hs => hfresh (watched_open hs))
  rw [started_reactor]
  refine addHandlers_watches hspec.wf hfront
    ⟨m.nextSocket + 1, a.setup.backFd, false, status, [], [], []⟩ this .onBackWritable
    [.onBackReadable, .onBackShutdown, .onBackError] rfl ?_ ?_
  · rw [hspec.view, Function.update_of_ne (Nat.succ_ne_self _)]
    exact hfree'
  · rintro s (hs | ⟨heq, -⟩)
    · exact hfresh' (watched_open hs)
    · exact hne heq

/-- **The step lemma.** -/
theorem step (h : Undisturbed m) {l : Label} (hstep : Step m l m')
    (hquiet : m.completesClose l = false) : Undisturbed m' := by
  have hsafe := safe_step h.safe hstep
  cases step_effect h.safe hstep with
  | quiet hclose hserver hnext hfaces hreactor hsnapshot =>
      refine ⟨hsafe, hfaces ▸ h.alive, ?_, hfaces ▸ h.front_open⟩
      rw [hreactor]
      exact h.watches.congr (watched_congr hserver hfaces (by rw [hreactor]))
  | polled hclose hserver hnext hfaces hreactor hsnapshot =>
      refine ⟨hsafe, hfaces ▸ h.alive, ?_, hfaces ▸ h.front_open⟩
      rw [hreactor]
      exact h.watches.prepare.congr (watched_congr hserver hfaces (by rw [hreactor]; rfl))
  | torn i w hclose =>
      -- this is the step that the run is without
      rw [hclose] at hquiet
      cases hquiet
  | registered a status service w hclose hok hconnect hw hserver hnext hfaces hreactor hsnapshot =>
      refine ⟨hsafe, ?_, ?_, ?_⟩
      · rw [hfaces, hw, List.forall_mem_append, List.forall_mem_singleton]
        exact ⟨h.alive, rfl⟩
      · rw [hreactor, hw]
        refine (h.started_watches hok hconnect service _).congr ?_
        exact watched_started h.safe hw hserver hfaces hreactor
      · rw [hfaces, hw, List.forall_mem_append, List.forall_mem_singleton]
        exact ⟨h.front_open, hok.1.1⟩
  | unregistered f hclose hnew hopen hserver hnext hfaces hreactor hsnapshot =>
      refine ⟨hsafe, ?_, ?_, ?_⟩
      · rw [hfaces, List.forall_mem_append, List.forall_mem_singleton]
        exact ⟨h.alive, hnew.deletions⟩
      · rw [hreactor]
        exact h.watches.congr
          (watched_unregistered h.safe hserver hnew.front.ge hfaces hreactor)
      · rw [hfaces, List.forall_mem_append, List.forall_mem_singleton]
        exact ⟨h.front_open, hopen⟩
  | refused hclose hserver hnext hfaces hreactor hsnapshot =>
      refine ⟨hsafe, hfaces ▸ h.alive, ?_, hfaces ▸ h.front_open⟩
      rw [hreactor]
      exact h.watches.congr (watched_congr hserver hfaces (by rw [hreactor]))

/-- As long as no session has been closed, the poll set is right. -/
theorem noStale_and_exact (h : Undisturbed m) : m.NoStale ∧ m.Exact := by
  constructor
  · intro c hc hdeleted
    exact absurd (h.alive c.face (List.mem_map_of_mem hc)) hdeleted
  · intro fd
    rw [h.watches.holds_iff]
    constructor
    · rintro ⟨s, ⟨rfl, -⟩ | ⟨i, f, d, hf, hne, rfl, -⟩⟩
      · exact .inl rfl
      · obtain ⟨c, hc, rfl⟩ := Option.map_eq_some_iff.mp ((List.getElem?_map).symm.trans hf)
        have hmem := List.mem_of_getElem? hc
        exact .inr ⟨c, hmem, ⟨h.alive _ (List.mem_map_of_mem hmem), hne⟩, d, rfl⟩
    · rintro (rfl | ⟨c, hc, ⟨-, hne⟩, d, rfl⟩)
      · exact ⟨_, .inl ⟨rfl, rfl⟩⟩
      · obtain ⟨i, hi⟩ := List.getElem?_of_mem hc
        exact ⟨_, .inr ⟨i, c.face, d, Machine.faces_of_some hi, hne, rfl, rfl⟩⟩

/-- **A `Close` that completes leaves an entry behind**: the map still has the
descriptor that the front socket had. -/
theorem stale (h : Undisturbed m) {l : Label} (hstep : Step m l m')
    (hcloses : m.completesClose l = true) : ¬ m'.NoStale := by
  cases step_effect h.safe hstep with
  | torn i w hclose hserver hnext hw halive hold hall hfaces hreactor hsnapshot =>
      have hne : targets m.reactor w.session.m_front.id ≠ [] := by
        intro hnil
        cases (hall .front).symm.trans hnil
      have hmap : m.reactor.pollSet.socketMap.lookup w.session.m_front.sockfd
          = some w.session.m_front.id :=
        (h.watches.socketMap _ _).mpr (.inr ⟨i, _, .front, hw, hne, rfl, rfl⟩)
      have hopen : w.session.m_front.sockfd ≠ POCO_INVALID_SOCKET :=
        h.front_open _ (List.mem_of_getElem? hw)
      -- the session is still in the list, and it has been deleted
      have hself : m'.faces[i]? = some (Cell.ofWorld w).face.torn := by
        rw [hfaces]
        exact List.getElem?_set_self (List.getElem?_eq_some_iff.mp hw).1
      obtain ⟨c, hc, hface⟩ := Option.map_eq_some_iff.mp ((List.getElem?_map).symm.trans hself)
      have hdel : c.deletions = w.deletions + 1 := congrArg Face.deletions hface
      have hid : c.session.m_front.id = w.session.m_front.id :=
        congrArg (fun f : Face => f.socket .front) hface
      intro hstale
      apply hstale c (List.mem_of_getElem? hc) (hdel ▸ Nat.succ_ne_zero _) .front
      refine .inl ⟨w.session.m_front.sockfd, ?_⟩
      rw [hreactor, torn_socketMap w hopen, hold, hmap]
      exact congrArg some hid.symm
  | quiet hclose =>
      rw [hclose] at hcloses
      cases hcloses
  | polled hclose =>
      rw [hclose] at hcloses
      cases hcloses
  | registered a status service w hclose =>
      rw [hclose] at hcloses
      cases hcloses
  | unregistered f hclose =>
      rw [hclose] at hcloses
      cases hcloses
  | refused hclose =>
      rw [hclose] at hcloses
      cases hcloses

end Undisturbed

theorem listening_undisturbed (sockfd : Fd) : Undisturbed (Machine.listening sockfd) := by
  refine ⟨listening_safe sockfd, fun f hf => (by cases hf), ?_, fun f hf => (by cases hf)⟩
  have hempty : Watches {} (fun _ _ => False) := by
    refine ⟨fun fd s => ⟨fun hs => ?_, False.elim⟩, fun fd a ha => ?_, fun e he => ?_⟩
    · cases hs
    · cases ha
    · cases he
  obtain ⟨mode, hmode⟩ := addEventHandler_adds (t := Machine.acceptTarget) wf_empty
    { SocketImpl.unopened 0 with sockfd := sockfd } List.not_mem_nil rfl
  have hadd := hempty.add { SocketImpl.unopened 0 with sockfd := sockfd } mode
    (fun s hs => hs.elim)
  rw [show (Machine.listening sockfd).reactor.pollSet = _ from hmode]
  apply hadd.congr
  intro fd s
  constructor
  · rintro (hfalse | hs)
    · exact hfalse.elim
    · exact .inl hs
  · rintro (hs | ⟨i, f, d, hf, -⟩)
    · exact .inr hs
    · cases hf

/-- **The poll set** is right in every state of a run exactly if no step of the run
completes a `Close`. -/
theorem pollSet_exact_iff (sockfd : Fd) {ts : List (Transition Machine Label)}
    (hrun : IsRun Step (Machine.listening sockfd) ts) :
    (∀ m ∈ states (Machine.listening sockfd) ts, m.NoStale ∧ m.Exact) ↔
      ∀ t ∈ ts, t.src.completesClose t.label = false := by
  have hstart := listening_undisturbed sockfd
  have hsteps : (∀ t ∈ ts, t.dst.NoStale ∧ t.dst.Exact) ↔
      ∀ t ∈ ts, t.src.completesClose t.label = false := by
    refine steps_iff (J := Undisturbed) (Q := fun _ _ m' => m'.NoStale ∧ m'.Exact)
      (C := fun m l => m.completesClose l = false) ?_ ?_ hstart hrun
    · intro m l m' h hstep hq
      by_cases hclose : m.completesClose l = true
      · exact absurd hq.1 (h.stale hstep hclose)
      · exact h.step hstep (by simpa using hclose)
    · intro m l m' h hstep
      by_cases hclose : m.completesClose l = true
      · rw [hclose]
        exact iff_of_false (fun hq => h.stale hstep hclose hq.1) (by decide)
      · have hquiet : m.completesClose l = false := by simpa using hclose
        exact iff_of_true (h.step hstep hquiet).noStale_and_exact hquiet
  rw [← hsteps]
  -- the states are the first one and those that the steps reach
  constructor
  · intro h t ht
    exact h _ (mem_states.mpr (.inr ⟨t, ht, rfl⟩))
  · intro h m hm
    rcases mem_states.mp hm with rfl | ⟨t, ht, rfl⟩
    · exact hstart.noStale_and_exact
    · exact h t ht

/-- A session is accepted, and closes when its front socket is in error. -/
def acceptThenError : List Label :=
  [.poll (some [(0, ⟨true, false, false⟩)]), .dispatch,
   .accept (some ⟨5, sampleSetup .byPass, {}⟩),
   .poll (some [(1, ⟨false, false, true⟩)]), .dispatch, .skip, .skip, .notify {}]

theorem allowed_acceptThenError :
    Allowed Admissible step (Machine.listening 3) acceptThenError := by
  decide +kernel

theorem pollSet_exact_iff_acceptThenError :
    (∀ m ∈ states (Machine.listening 3) (unroll step (Machine.listening 3) acceptThenError),
        m.NoStale ∧ m.Exact) ↔
      ∀ t ∈ unroll step (Machine.listening 3) acceptThenError,
        t.src.completesClose t.label = false :=
  pollSet_exact_iff 3 (isRun_unroll allowed_acceptThenError)

/-- The descriptor of the front socket stays in the poll set when the session is gone. -/
theorem pollSet_not_exact : ¬ ∀ (sockfd : Fd) (ts : List (Transition Machine Label)),
    IsRun Step (Machine.listening sockfd) ts →
      ∀ m ∈ states (Machine.listening sockfd) ts, m.NoStale ∧ m.Exact := by
  intro h
  have hlast := (h 3 _ (isRun_unroll allowed_acceptThenError)
    (acceptThenError.foldl step (Machine.listening 3))
    (mem_states.mpr (.inr ⟨_, List.mem_of_getLast? rfl, rfl⟩))).1
  have hmap : (acceptThenError.foldl step (Machine.listening 3)).reactor.pollSet.socketMap.lookup 5
      = some 1 := by decide +kernel
  obtain ⟨c, hc, hdeleted, hid⟩ : ∃ c ∈ (acceptThenError.foldl step (Machine.listening 3)).sessions,
      c.deletions ≠ 0 ∧ c.session.m_front.id = 1 := by decide +kernel
  exact hlast c hc hdeleted .front (.inl ⟨5, hid ▸ hmap⟩)

end PocoProxy.ReactorLoop
