/-
What every run of the reactor keeps.

A dispatch may name a session that has deleted itself in the meantime: in what is
left of a poll result, among the notifiers of a broadcast, in a snapshot of
observers. `Safe` is the invariant behind its being harmless. Between two
observers the registry has all handlers of a session or none, it has none of a
session that has been deleted, and an observer in the snapshot that is not
disabled is still registered. So whatever is called next belongs to a session
that exists.

The invariant is about the registry and the little of a session that the reactor
sees, its `Face`; all but three kinds of steps leave both as they are.
-/
import PocoProxy.ReactorLoop

set_option autoImplicit false

namespace PocoProxy.ReactorLoop

open PocoProxy.Program PocoProxy.Socket PocoProxy.PollSet PocoProxy.Registry PocoProxy.Reactor
open PocoProxy.Session PocoProxy.Runs

/-! ## The face of a session -/

/-- What the reactor's side depends on. -/
structure Face where
  this : ObjectId
  socket : Side → SocketId
  sockfd : Side → Fd
  deletions : ℕ
  touched : Bool

def Cell.face (c : Cell) : Face where
  this := c.session.this
  socket d := (c.session.socket d).id
  sockfd d := (c.session.socket d).sockfd
  deletions := c.deletions
  touched := c.touched

/-- The face of a session that has been torn down. -/
def Face.torn (f : Face) : Face :=
  { f with sockfd := fun _ => POCO_INVALID_SOCKET, deletions := f.deletions + 1 }

/-- Two sides of a session are the same when they are the same in front and at the
back. -/
theorem face_ext {c c' : Cell} (hthis : c'.session.this = c.session.this)
    (hid : ∀ d, (c'.session.socket d).id = (c.session.socket d).id)
    (hfd : ∀ d, (c'.session.socket d).sockfd = (c.session.socket d).sockfd)
    (hdel : c'.deletions = c.deletions) (htouched : c'.touched = c.touched) :
    c'.face = c.face := by
  unfold Cell.face
  rw [hthis, hdel, htouched, funext hid, funext hfd]

/-- What `w'` has in common with `w` when only the session's inner life differs. -/
def SameFace (w w' : World) : Prop :=
  (Cell.ofWorld w').face = (Cell.ofWorld w).face ∧ w'.reactor = w.reactor

theorem SameFace.refl (w : World) : SameFace w w := ⟨rfl, rfl⟩

theorem relayed_sameFace (w : World) (d : Side) (o : Outcomes) (bs : List Byte) :
    SameFace w ((w.received d bs).relayed o d bs) := by
  refine ⟨face_ext ?_ ?_ ?_ rfl rfl, ?_⟩
  · cases d <;> rfl
  · intro e
    cases d <;> cases e <;> rfl
  · intro e
    cases d <;> cases e <;> rfl
  · cases d <;> rfl

theorem readMoved_sameFace (d : Side) (o : Outcomes) (w : World) :
    SameFace w (w.readMoved d o) := by
  unfold World.readMoved
  by_cases hb : w.session.m_back_connected = true
  · rw [if_pos hb]
    cases o.receive with
    | bytes first rest => exact relayed_sameFace w d o _
    | endOfStream => exact .refl w
    | wouldBlock => exact .refl w
    | throws e => exact .refl w
  · rw [if_neg hb]
    exact .refl w

theorem connectMoved_sameFace (w : World) : SameFace w w.connectMoved := by
  unfold World.connectMoved
  by_cases hb : w.session.m_back_connected = true
  · rw [if_pos hb]
    exact .refl w
  · rw [if_neg hb]
    refine ⟨face_ext rfl ?_ ?_ rfl rfl, rfl⟩
    · intro e
      cases e <;> rfl
    · intro e
      cases e <;> rfl

/-- The work of a handler before `Close`. -/
theorem moved_sameFace (m : Method) (o : Outcomes) (w : World) : SameFace w (w.moved m o) := by
  cases m with
  | onFrontReadable => exact readMoved_sameFace .front o w
  | onBackReadable => exact readMoved_sameFace .back o w
  | onBackWritable => exact connectMoved_sameFace w
  | _ => exact .refl w

/-- **A handler, seen from the reactor**: nothing has changed, or the session has been
torn down. -/
theorem handle_face (m : Method) (o : Outcomes) (w : World) :
    tearsDown m o w.session = false ∧ SameFace w (w.handle m o) ∨
      tearsDown m o w.session = true ∧ ∃ v, SameFace w v ∧ w.handle m o = v.torn := by
  have hmoved := moved_sameFace m o w
  rcases handle_cases m o w with ⟨ht, heq⟩ | ⟨ht, heq | heq⟩
  · exact .inr ⟨ht, (w.moved m o).marked, ⟨hmoved.1, hmoved.2⟩, heq⟩
  · rw [heq]
    exact .inl ⟨ht, hmoved⟩
  · rw [heq]
    exact .inl ⟨ht, hmoved.1, hmoved.2⟩

theorem torn_face (w : World) : (Cell.ofWorld w.torn).face = (Cell.ofWorld w).face.torn := by
  unfold Cell.face Face.torn
  congr 1
  · funext d
    cases d <;> rfl
  · funext d
    cases d <;> rfl

/-- The peers and the network do not show either. -/
theorem arrive_sameFace (w : World) (d : Side) (bs : List Byte) :
    SameFace w (Session.step w (.arrive d bs)) := by
  refine ⟨face_ext ?_ ?_ ?_ rfl rfl, rfl⟩
  · cases d <;> rfl
  · intro e
    cases d <;> cases e <;> rfl
  · intro e
    cases d <;> cases e <;> rfl

theorem connectDone_sameFace (w : World) (status : ConnectStatus) :
    SameFace w (Session.step w (.connectDone status)) := by
  refine ⟨face_ext rfl ?_ ?_ rfl rfl, rfl⟩
  · intro e
    cases e <;> rfl
  · intro e
    cases e <;> rfl

/-! ## The invariant -/

/-- The methods that a session has registered for one of its sockets. -/
def sideMethods : Side → List Method
  | .front => frontMethods
  | .back => backMethods

def sideTargets (this : ObjectId) (d : Side) : List Target := (sideMethods d).map (Target.mk this)

theorem ne_onAccept_of_mem {method : Method} {d : Side} (h : method ∈ sideMethods d) :
    method ≠ .onAccept := by
  rintro rfl
  cases d <;> revert h <;> decide

/-- The part of the invariant that is about the sessions alone: their sockets are
different, and they have been deleted once at most. -/
structure Layout (server next : SocketId) (faces : List Face) : Prop where
  this : ∀ (i : ℕ) f, faces[i]? = some f → f.this = .session i
  server_lt : server < next
  socket_lt : ∀ (i : ℕ) f d, faces[i]? = some f → f.socket d ≠ server ∧ f.socket d < next
  socket_inj : ∀ (i j : ℕ) f f' d d', faces[i]? = some f → faces[j]? = some f' →
    f.socket d = f'.socket d' → i = j ∧ d = d'
  once : ∀ (i : ℕ) f, faces[i]? = some f → f.deletions ≤ 1 ∧ f.touched = false

/-- The invariant, over the registry, the listening socket, the next new address,
the faces of the sessions and the rest of the snapshot. -/
structure Safe (r : SocketReactor) (server next : SocketId) (faces : List Face)
    (snapshot : List Observer) : Prop extends Layout server next faces where
  wf : Wf r
  /-- Who is registered is the acceptor or a session that exists. -/
  registered : ∀ s, ∀ t ∈ targets r s, (s = server ∧ t = Machine.acceptTarget) ∨
    ∃ i f d, faces[i]? = some f ∧ f.deletions = 0 ∧ s = f.socket d ∧ t ∈ sideTargets (.session i) d
  /-- A session is registered with all its handlers or with none. -/
  whole : ∀ (i : ℕ) f, faces[i]? = some f →
    (∀ d, targets r (f.socket d) = sideTargets (.session i) d) ∨ ∀ d, targets r (f.socket d) = []
  /-- What is enabled in the snapshot is registered. -/
  snapshot : ∀ o ∈ snapshot, o.id ∉ r.disabled → ∃ p, o ∈ (r.notifiers p).observers

/-! ### Sessions that come and go -/

/-- The faces after one of them has been torn down. -/
theorem getElem?_set_torn {faces : List Face} {i j : ℕ} {f f' : Face} (hf : faces[i]? = some f)
    (hf' : (faces.set i f.torn)[j]? = some f') :
    j = i ∧ f' = f.torn ∨ j ≠ i ∧ faces[j]? = some f' := by
  by_cases hj : j = i
  · rw [hj, List.getElem?_set_self (List.getElem?_eq_some_iff.mp hf).1, Option.some.injEq] at hf'
    exact .inl ⟨hj, hf'.symm⟩
  · rw [List.getElem?_set_ne (Ne.symm hj)] at hf'
    exact .inr ⟨hj, hf'⟩

/-- The faces after one has been added. -/
theorem getElem?_concat {faces : List Face} {j : ℕ} {f f' : Face}
    (hf' : (faces ++ [f])[j]? = some f') : faces[j]? = some f' ∨ j = faces.length ∧ f' = f := by
  by_cases hj : j < faces.length
  · rw [List.getElem?_append_left hj] at hf'
    exact .inl hf'
  · have hlt := (List.getElem?_eq_some_iff.mp hf').1
    rw [List.length_append, List.length_singleton] at hlt
    have hj' : j = faces.length := by omega
    rw [hj', List.getElem?_concat_length, Option.some.injEq] at hf'
    exact .inr ⟨hj', hf'.symm⟩

namespace Layout

variable {server next : SocketId} {faces : List Face}

theorem torn (h : Layout server next faces) {i : ℕ} {f : Face} (hf : faces[i]? = some f)
    (halive : f.deletions = 0) : Layout server next (faces.set i f.torn) := by
  -- a session that has been torn down keeps its names
  have hface : ∀ (j : ℕ) f', (faces.set i f.torn)[j]? = some f' →
      ∃ g, faces[j]? = some g ∧ f'.this = g.this ∧ f'.socket = g.socket := by
    intro j f' hf'
    rcases getElem?_set_torn hf hf' with ⟨rfl, rfl⟩ | ⟨-, hf'⟩
    · exact ⟨f, hf, rfl, rfl⟩
    · exact ⟨f', hf', rfl, rfl⟩
  refine ⟨?_, h.server_lt, ?_, ?_, ?_⟩
  · intro j f' hf'
    obtain ⟨g, hg, hthis, -⟩ := hface j f' hf'
    exact hthis.trans (h.this j g hg)
  · intro j f' d hf'
    obtain ⟨g, hg, -, hsocket⟩ := hface j f' hf'
    rw [hsocket]
    exact h.socket_lt j g d hg
  · intro j k f' f'' d d' hf' hf'' heq
    obtain ⟨g, hg, -, hsocket⟩ := hface j f' hf'
    obtain ⟨g', hg', -, hsocket'⟩ := hface k f'' hf''
    rw [hsocket, hsocket'] at heq
    exact h.socket_inj j k g g' d d' hg hg' heq
  · -- it was alive, so that this is its first deletion
    intro j f' hf'
    rcases getElem?_set_torn hf hf' with ⟨rfl, rfl⟩ | ⟨-, hf'⟩
    · refine ⟨?_, (h.once j f hf).2⟩
      change f.deletions + 1 ≤ 1
      omega
    · exact h.once j f' hf'

/-- A face with the next two addresses, for the next session. -/
structure New (next : SocketId) (index : ℕ) (f : Face) : Prop where
  this : f.this = .session index
  front : f.socket .front = next
  back : f.socket .back = next + 1
  deletions : f.deletions = 0
  touched : f.touched = false

theorem New.bounds {index : ℕ} {f : Face} (h : New next index f) (d : Side) :
    next ≤ f.socket d ∧ f.socket d < next + 2 := by
  cases d with
  | front =>
      rw [h.front]
      exact ⟨le_rfl, Nat.lt_add_of_pos_right (by decide)⟩
  | back =>
      rw [h.back]
      exact ⟨Nat.le_succ _, Nat.lt_succ_self _⟩

theorem grow (h : Layout server next faces) : Layout server (next + 2) faces := by
  have hgrow : next < next + 2 := Nat.lt_add_of_pos_right (by decide)
  refine { h with server_lt := Nat.lt_trans h.server_lt hgrow, socket_lt := ?_ }
  intro i f d hf
  obtain ⟨hne, hlt⟩ := h.socket_lt i f d hf
  exact ⟨hne, Nat.lt_trans hlt hgrow⟩

theorem created (h : Layout server next faces) {f : Face} (hnew : New next faces.length f) :
    Layout server (next + 2) (faces ++ [f]) := by
  have hgrown := h.grow
  refine ⟨?_, hgrown.server_lt, ?_, ?_, ?_⟩
  · intro j f' hf'
    rcases getElem?_concat hf' with hf' | ⟨rfl, rfl⟩
    · exact h.this j f' hf'
    · exact hnew.this
  · intro j f' d hf'
    rcases getElem?_concat hf' with hf' | ⟨rfl, rfl⟩
    · exact hgrown.socket_lt j f' d hf'
    · obtain ⟨hle, hlt⟩ := hnew.bounds d
      exact ⟨Nat.ne_of_gt (Nat.lt_of_lt_of_le h.server_lt hle), hlt⟩
  · intro j k f' f'' d d' hf' hf'' heq
    rcases getElem?_concat hf' with hj | ⟨rfl, rfl⟩ <;>
      rcases getElem?_concat hf'' with hk | ⟨rfl, rfl⟩
    · exact h.socket_inj j k f' f'' d d' hj hk heq
    -- a new name is above those that are there
    · have hlt := (h.socket_lt j f' d hj).2
      exact absurd (heq ▸ (hnew.bounds d').1) (Nat.not_le_of_lt hlt)
    · have hlt := (h.socket_lt k f'' d' hk).2
      exact absurd (heq ▸ (hnew.bounds d).1) (Nat.not_le_of_lt hlt)
    · -- the two sides of the new session
      refine ⟨rfl, ?_⟩
      cases d <;> cases d'
      · rfl
      · rw [hnew.front, hnew.back] at heq
        exact absurd heq (Nat.ne_of_lt (Nat.lt_succ_self _))
      · rw [hnew.front, hnew.back] at heq
        exact absurd heq (Nat.ne_of_gt (Nat.lt_succ_self _))
      · rfl
  · intro j f' hf'
    rcases getElem?_concat hf' with hf' | ⟨rfl, rfl⟩
    · exact h.once j f' hf'
    · rw [hnew.deletions, hnew.touched]
      exact ⟨Nat.zero_le _, rfl⟩

end Layout

/-- The two sockets of a new session have names above those that there are. -/
theorem update_pair_of_lt {β : Type} {f : SocketId → β} {next s : SocketId} {a b : β}
    (hs : s < next) : Function.update (Function.update f next a) (next + 1) b s = f s := by
  rw [Function.update_of_ne (Nat.ne_of_lt (Nat.lt_succ_of_lt hs)),
    Function.update_of_ne (Nat.ne_of_lt hs)]

theorem update_pair_front {β : Type} {f : SocketId → β} {next : SocketId} {a b : β} :
    Function.update (Function.update f next a) (next + 1) b next = a := by
  rw [Function.update_of_ne (Nat.ne_of_lt (Nat.lt_succ_self _)), Function.update_self]

namespace Safe

variable {r r' : SocketReactor} {server next : SocketId} {faces : List Face}
  {snapshot snapshot' : List Observer}

/-- The snapshot gets shorter, or is another one. -/
theorem resnapshot (h : Safe r server next faces snapshot)
    (hs : ∀ o ∈ snapshot', o.id ∉ r.disabled → ∃ p, o ∈ (r.notifiers p).observers) :
    Safe r server next faces snapshot' := { h with snapshot := hs }

theorem shorten (h : Safe r server next faces snapshot) (hs : ∀ o ∈ snapshot', o ∈ snapshot) :
    Safe r server next faces snapshot' :=
  h.resnapshot fun o ho => h.snapshot o (hs o ho)

/-- The poll set plays no part. -/
theorem setPollSet (h : Safe r server next faces snapshot) (p : PollSetImpl) :
    Safe { r with pollSet := p } server next faces snapshot :=
  { h with wf := ⟨h.wf.injective, h.wf.allocated, h.wf.reached⟩ }

/-- Nobody is registered for a socket that does not exist yet. -/
theorem targets_new (h : Safe r server next faces snapshot) {s : SocketId} (hs : next ≤ s) :
    targets r s = [] := by
  apply List.eq_nil_iff_forall_not_mem.mpr
  intro t ht
  rcases h.registered s t ht with ⟨rfl, -⟩ | ⟨i, f, d, hf, -, rfl, -⟩
  · exact absurd h.server_lt (Nat.not_lt_of_le hs)
  · exact absurd (h.socket_lt i f d hf).2 (Nat.not_lt_of_le hs)

theorem grow (h : Safe r server next faces snapshot) :
    Safe r server (next + 2) faces snapshot := { h with toLayout := h.toLayout.grow }

/-- **What is called next belongs to a session that exists** and has all its
handlers, or it is the acceptor's. -/
theorem called (h : Safe r server next faces snapshot) {o : Observer} (ho : o ∈ snapshot)
    (henabled : o.id ∉ r.disabled) :
    o.target = Machine.acceptTarget ∨
      ∃ i f, faces[i]? = some f ∧ f.deletions = 0 ∧
        (∃ d, o.target ∈ sideTargets (.session i) d) ∧
          ∀ d, targets r (f.socket d) = sideTargets (.session i) d := by
  obtain ⟨p, hp⟩ := h.snapshot o ho henabled
  -- a notifier with observers is some socket's
  obtain ⟨s, hs⟩ := h.wf.reached p (List.ne_nil_of_mem hp)
  have hmem : o.target ∈ targets r s := by
    rw [targets_of_some hs]
    exact List.mem_map_of_mem hp
  rcases h.registered s _ hmem with ⟨-, heq⟩ | ⟨i, f, d, hf, hd, rfl, ht⟩
  · exact .inl heq
  · rcases h.whole i f hf with hall | hnone
    · exact .inr ⟨i, f, hf, hd, ⟨d, ht⟩, hall⟩
    · rw [hnone d] at hmem
      exact absurd hmem List.not_mem_nil

/-- A change of the registry loses no enabled observer of the snapshot. -/
theorem kept (h : Safe r server next faces snapshot) (hk : Kept r r')
    (hs : ∀ o ∈ snapshot', o ∈ snapshot) :
    ∀ o ∈ snapshot', o.id ∉ r'.disabled → ∃ p, o ∈ (r'.notifiers p).observers := by
  intro o ho henabled
  obtain ⟨p, hp⟩ := h.snapshot o (hs o ho) fun hd => henabled (hk.disabled _ hd)
  rcases hk.observers p o hp with hin | hdis
  · exact ⟨p, hin⟩
  · exact absurd hdis henabled

/-! ### The steps that change the registry -/

/-- A session is deleted, and its handlers have been taken out of the registry. -/
theorem torn (h : Safe r server next faces snapshot) {i : ℕ} {f : Face} (hf : faces[i]? = some f)
    (halive : f.deletions = 0)
    (hr : Becomes r r' (Function.update (Function.update (targets r) (f.socket .front) [])
      (f.socket .back) []))
    (hs : ∀ o ∈ snapshot', o ∈ snapshot) :
    Safe r' server next (faces.set i f.torn) snapshot' := by
  have hown : ∀ d, targets r' (f.socket d) = [] := by
    intro d
    rw [hr.view]
    cases d with
    | back => rw [Function.update_self]
    | front =>
        by_cases heq : f.socket .front = f.socket .back
        · rw [heq, Function.update_self]
        · rw [Function.update_of_ne heq, Function.update_self]
  have hother : ∀ s, (∀ d, s ≠ f.socket d) → targets r' s = targets r s := by
    intro s hne
    rw [hr.view, Function.update_of_ne (hne .back), Function.update_of_ne (hne .front)]
  refine ⟨h.toLayout.torn hf halive, hr.wf, ?_, ?_, h.kept hr.kept hs⟩
  · intro s t ht
    have hne : ∀ d, s ≠ f.socket d := by
      intro d heq
      rw [heq, hown] at ht
      exact List.not_mem_nil ht
    rw [hother s hne] at ht
    rcases h.registered s t ht with hserver | ⟨j, g, d, hg, hd, hsg, htg⟩
    · exact .inl hserver
    · have hj : j ≠ i := by
        intro hj
        rw [hj, hf, Option.some.injEq] at hg
        exact hne d (hg ▸ hsg)
      rw [← List.getElem?_set_ne (Ne.symm hj)] at hg
      exact .inr ⟨j, g, d, hg, hd, hsg, htg⟩
  · intro j f' hf'
    rcases getElem?_set_torn hf hf' with ⟨rfl, rfl⟩ | ⟨hj, hf'⟩
    · exact .inr hown
    · -- the sockets of another session are other sockets
      have hsame : ∀ d, targets r' (f'.socket d) = targets r (f'.socket d) := by
        intro d
        apply hother
        intro d' heq
        exact hj (h.socket_inj j i f' f d d' hf' hf heq).1
      rcases h.whole j f' hf' with hall | hnone
      · exact .inl fun d => (hsame d).trans (hall d)
      · exact .inr fun d => (hsame d).trans (hnone d)

/-- A session has been created, on two new sockets. It has all its handlers, or the
registry is as it was. -/
theorem created (h : Safe r server next faces snapshot) {f : Face}
    (hnew : Layout.New next faces.length f)
    (hr : Becomes r r' (Function.update (Function.update (targets r) next
        (sideTargets (.session faces.length) .front)) (next + 1)
        (sideTargets (.session faces.length) .back)) ∨ r' = r)
    (hs : ∀ o ∈ snapshot', o ∈ snapshot) :
    Safe r' server (next + 2) (faces ++ [f]) snapshot' := by
  have hwf : Wf r' := by
    rcases hr with hr | rfl
    · exact hr.wf
    · exact h.wf
  have hkept : Kept r r' := by
    rcases hr with hr | rfl
    · exact hr.kept
    · exact .refl _
  -- the registry is unchanged at the sockets there were
  have hold : ∀ s, s < next → targets r' s = targets r s := by
    intro s hs'
    rcases hr with hr | rfl
    · rw [hr.view, update_pair_of_lt hs']
    · rfl
  have hown : (∀ d, targets r' (f.socket d) = sideTargets (.session faces.length) d) ∨
      ∀ d, targets r' (f.socket d) = [] := by
    rcases hr with hr | rfl
    · left
      intro d
      rw [hr.view]
      cases d with
      | front => rw [hnew.front, update_pair_front]
      | back => rw [hnew.back, Function.update_self]
    · exact .inr fun d => h.targets_new (hnew.bounds d).1
  have hbeyond : ∀ s, next ≤ s → (∀ d, s ≠ f.socket d) → targets r' s = [] := by
    intro s hs' hne
    rcases hr with hr | rfl
    · rw [hr.view, Function.update_of_ne (hnew.back ▸ hne .back),
        Function.update_of_ne (hnew.front ▸ hne .front)]
      exact h.targets_new hs'
    · exact h.targets_new hs'
  refine ⟨h.toLayout.created hnew, hwf, ?_, ?_, h.kept hkept hs⟩
  · intro s t ht
    by_cases hlt : s < next
    · rw [hold s hlt] at ht
      rcases h.registered s t ht with hserver | ⟨j, g, d, hg, hd, hsg, htg⟩
      · exact .inl hserver
      · rw [← List.getElem?_append_left (List.getElem?_eq_some_iff.mp hg).1] at hg
        exact .inr ⟨j, g, d, hg, hd, hsg, htg⟩
    · have hd : ∃ d, s = f.socket d := by
        by_contra hne
        rw [hbeyond s (Nat.le_of_not_lt hlt) fun d heq => hne ⟨d, heq⟩] at ht
        exact List.not_mem_nil ht
      obtain ⟨d, rfl⟩ := hd
      rcases hown with hall | hnone
      · rw [hall d] at ht
        exact .inr ⟨_, f, d, List.getElem?_concat_length, hnew.deletions, rfl, ht⟩
      · rw [hnone d] at ht
        exact absurd ht List.not_mem_nil
  · intro j f' hf'
    rcases getElem?_concat hf' with hf' | ⟨rfl, rfl⟩
    · have hsame : ∀ d, targets r' (f'.socket d) = targets r (f'.socket d) :=
        fun d => hold _ (h.socket_lt j f' d hf').2
      rcases h.whole j f' hf' with hall | hnone
      · exact .inl fun d => (hsame d).trans (hall d)
      · exact .inr fun d => (hsame d).trans (hnone d)
    · exact hown

end Safe

/-! ## The registry at the two ends of a session -/

theorem torn_reactor (w : World) :
    w.torn.reactor = removeHandlers
      (removeHandlers w.reactor w.session.m_front.close w.session.this frontMethods)
      w.session.m_back.close w.session.this backMethods := by
  rw [World.torn]

/-- `~ProxySession` takes all handlers of the session out of the registry. -/
theorem torn_becomes {w : World} (h : Wf w.reactor)
    (hne : w.session.m_back.id ≠ w.session.m_front.id)
    (hall : ∀ d, targets w.reactor (w.session.socket d).id = sideTargets w.session.this d) :
    Becomes w.reactor w.torn.reactor (Function.update
      (Function.update (targets w.reactor) w.session.m_front.id []) w.session.m_back.id []) := by
  have hfront := removeHandlers_all (s := w.session.m_front.id) h w.session.m_front.close rfl
    w.session.this frontMethods (hall .front)
  have hback := removeHandlers_all (s := w.session.m_back.id) hfront.wf w.session.m_back.close rfl
    w.session.this backMethods (by
      rw [hfront.view, Function.update_of_ne hne]
      exact hall .back)
  rw [hfront.view] at hback
  rw [torn_reactor]
  exact hfront.trans hback

theorem started_reactor (backFd : Fd) (status : ConnectStatus) (service : Option ServiceKind)
    (this : ObjectId) (front : SocketImpl) (backId : SocketId) (r : SocketReactor) :
    (started backFd status service this front backId r).reactor
      = addHandlers (addHandlers r front this frontMethods)
        ⟨backId, backFd, false, status, [], [], []⟩ this backMethods := by
  simp only [started, World.attached, World.constructed, ProxySession.construct,
    SocketImpl.unopened]

/-- `RegisterHandler` of a new session puts them in. -/
theorem started_becomes {r : SocketReactor} (h : Wf r) {front : SocketImpl} {backId : SocketId}
    (hfree : targets r front.id = []) (hfree' : targets r backId = []) (hne : backId ≠ front.id)
    (backFd : Fd) (status : ConnectStatus) (service : Option ServiceKind) (this : ObjectId) :
    Becomes r (started backFd status service this front backId r).reactor
      (Function.update (Function.update (targets r) front.id (sideTargets this .front)) backId
        (sideTargets this .back)) := by
  have hfront := addHandlers_new (s := front.id) h front rfl this frontMethods (by decide) hfree
  have hback := addHandlers_new (s := backId) hfront.wf
    ⟨backId, backFd, false, status, [], [], []⟩ rfl this backMethods (by decide)
    (by rw [hfront.view, Function.update_of_ne hne, hfree'])
  rw [hfront.view] at hback
  rw [started_reactor]
  exact hfront.trans hback

/-! ## What a step does -/

namespace Machine

/-- The faces of the machine's sessions. -/
def faces (m : Machine) : List Face := m.sessions.map Cell.face

/-- The invariant of the machine. -/
def Safe (m : Machine) : Prop :=
  ReactorLoop.Safe m.reactor m.server.id m.nextSocket m.faces m.observersToNotify

theorem faces_of_some {m : Machine} {i : ℕ} {c : Cell} (hc : m.sessions[i]? = some c) :
    m.faces[i]? = some c.face := by
  rw [faces, List.getElem?_map, hc, Option.map_some]

/-- A session is replaced by one with the same face. -/
theorem faces_set {m : Machine} {i : ℕ} {c c' : Cell} (hc : m.sessions[i]? = some c)
    (hface : c'.face = c.face) : (m.sessions.set i c').map Cell.face = m.faces := by
  have hi := faces_of_some hc
  obtain ⟨hlt, heq⟩ := List.getElem?_eq_some_iff.mp hi
  rw [List.map_set, hface, ← heq]
  exact List.set_getElem_self hlt

/-- The step runs a handler in which `Close` gets to its end. -/
def completesClose (m : Machine) : Label → Bool
  | .notify o => m.calledSession.any fun x => tearsDown x.2 o x.1.session
  | _ => false

theorem calledSession_eq {m : Machine} {i : ℕ} {method : Method} {c : Cell}
    (hcall : m.nextCall = some ⟨.session i, method⟩) (hc : m.sessions[i]? = some c) :
    m.calledSession = some (c, method) := by
  unfold calledSession
  rw [hcall]
  dsimp only
  rw [hc, Option.map_some]

end Machine

/-- The observers of `m'` are from the snapshot of `m`, or from a notifier's list. -/
def SnapshotOk (m m' : Machine) : Prop :=
  ∀ o ∈ m'.observersToNotify,
    o ∈ m.observersToNotify ∨ ∃ p, o ∈ (m.reactor.notifiers p).observers

/-- What a step comes to for the registry, the poll set and the faces. -/
inductive Effect (m : Machine) (l : Label) (m' : Machine) : Prop
  /-- Nothing has changed there. -/
  | quiet (hclose : m.completesClose l = false) (hserver : m'.server = m.server)
      (hnext : m'.nextSocket = m.nextSocket) (hfaces : m'.faces = m.faces)
      (hreactor : m'.reactor = m.reactor) (hsnapshot : SnapshotOk m m')
  /-- The poll set has been made ready. -/
  | polled (hclose : m.completesClose l = false) (hserver : m'.server = m.server)
      (hnext : m'.nextSocket = m.nextSocket) (hfaces : m'.faces = m.faces)
      (hreactor : m'.reactor = { m.reactor with pollSet := m.reactor.pollSet.prepare })
      (hsnapshot : m'.observersToNotify = m.observersToNotify)
  /-- `Close` has torn a session down. -/
  | torn (i : ℕ) (w : World) (hclose : m.completesClose l = true) (hserver : m'.server = m.server)
      (hnext : m'.nextSocket = m.nextSocket) (hw : m.faces[i]? = some (Cell.ofWorld w).face)
      (halive : w.Alive) (hold : w.reactor = m.reactor)
      (hall : ∀ d, targets m.reactor (w.session.socket d).id = sideTargets (.session i) d)
      (hfaces : m'.faces = m.faces.set i (Cell.ofWorld w).face.torn)
      (hreactor : m'.reactor = w.torn.reactor)
      (hsnapshot : ∀ o ∈ m'.observersToNotify, o ∈ m.observersToNotify)
  /-- A session has been created and registered. -/
  | registered (a : Accepted) (status : ConnectStatus) (service : Option ServiceKind) (w : World)
      (hclose : m.completesClose l = false) (hok : AcceptOk m a)
      (hconnect : a.setup.connect = .ok status)
      (hw : w = started a.setup.backFd status service (.session m.sessions.length)
        (m.acceptConnection a.sockfd) (m.nextSocket + 1) m.reactor)
      (hserver : m'.server = m.server) (hnext : m'.nextSocket = m.nextSocket + 2)
      (hfaces : m'.faces = m.faces ++ [(Cell.ofWorld w).face]) (hreactor : m'.reactor = w.reactor)
      (hsnapshot : ∀ o ∈ m'.observersToNotify, o ∈ m.observersToNotify)
  /-- A session has been created, and the reactor knows nothing of it. -/
  | unregistered (f : Face) (hclose : m.completesClose l = false)
      (hnew : Layout.New m.nextSocket m.faces.length f)
      (hopen : f.sockfd .front ≠ POCO_INVALID_SOCKET)
      (hserver : m'.server = m.server) (hnext : m'.nextSocket = m.nextSocket + 2)
      (hfaces : m'.faces = m.faces ++ [f]) (hreactor : m'.reactor = m.reactor)
      (hsnapshot : ∀ o ∈ m'.observersToNotify, o ∈ m.observersToNotify)
  /-- The constructor of the session has thrown. -/
  | refused (hclose : m.completesClose l = false) (hserver : m'.server = m.server)
      (hnext : m'.nextSocket = m.nextSocket + 2) (hfaces : m'.faces = m.faces)
      (hreactor : m'.reactor = m.reactor)
      (hsnapshot : ∀ o ∈ m'.observersToNotify, o ∈ m.observersToNotify)

theorem remaining_sub (result : Except Exception Unit) (observers : List Observer) :
    ∀ o ∈ remaining result observers.tail, o ∈ observers := by
  intro o ho
  cases result with
  | ok u => exact List.mem_of_mem_tail ho
  | error e => exact absurd ho List.not_mem_nil

theorem SnapshotOk.of_sub {m m' : Machine}
    (h : ∀ o ∈ m'.observersToNotify, o ∈ m.observersToNotify) : SnapshotOk m m' :=
  fun o ho => .inl (h o ho)

/-- A session's own step does not show. -/
theorem onSession_effect (m : Machine) (l : Label) (hclose : m.completesClose l = false) (i : ℕ)
    {f : World → World} (hf : ∀ w, SameFace w (f w)) : Effect m l (m.onSession i f) := by
  unfold Machine.onSession
  cases hc : m.sessions[i]? with
  | none => exact .quiet hclose rfl rfl rfl rfl (.of_sub fun _ ho => ho)
  | some c =>
      obtain ⟨hface, hreactor⟩ := hf (c.world m.reactor)
      exact .quiet hclose rfl rfl (Machine.faces_set hc hface) hreactor (.of_sub fun _ ho => ho)

/-- `onAccept` creates a session on two new sockets, if it creates one. -/
theorem onAccept_effect (m : Machine) (l : Label) (hclose : m.completesClose l = false)
    {a : Accepted} (hok : AcceptOk m a) : Effect m l (m.onAccept a) := by
  have hlength : m.faces.length = m.sessions.length := List.length_map _
  unfold Machine.onAccept
  rcases hcreate : createServiceHandler a.setup a.outcomes (.session m.sessions.length)
      (m.acceptConnection a.sockfd) (m.nextSocket + 1) m.reactor with ⟨result, session⟩
  have hsub := remaining_sub result m.observersToNotify
  cases session with
  | none => exact .refused hclose rfl rfl rfl rfl hsub
  | some w =>
      have hfaces : (m.sessions ++ [Cell.ofWorld w]).map Cell.face
          = m.faces ++ [(Cell.ofWorld w).face] := by
        rw [List.map_append, List.map_singleton]
        rfl
      rcases createServiceHandler_leaves (congrArg Prod.snd hcreate) with
        ⟨status, service, -, hconnect, hw⟩ | ⟨-, rfl | ⟨service, rfl⟩⟩
      · exact .registered a status service w hclose hok hconnect hw rfl rfl hfaces rfl hsub
      · exact .unregistered _ hclose ⟨hlength ▸ rfl, rfl, rfl, rfl, rfl⟩ hok.1.1 rfl rfl hfaces rfl
          hsub
      · exact .unregistered _ hclose ⟨hlength ▸ rfl, rfl, rfl, rfl, rfl⟩ hok.1.1 rfl rfl hfaces rfl
          hsub

/-- The session that is called exists, and has all its handlers. -/
theorem Machine.Safe.alive {m : Machine} (h : m.Safe) {i : ℕ} {method : Method}
    (hcall : m.nextCall = some ⟨.session i, method⟩) :
    ∃ c, m.sessions[i]? = some c ∧ c.deletions = 0 ∧ (∃ d, method ∈ sideMethods d) ∧
      ∀ d, targets m.reactor (c.session.socket d).id = sideTargets (.session i) d := by
  unfold Machine.nextCall at hcall
  cases hobs : m.observersToNotify with
  | nil =>
      rw [hobs] at hcall
      cases hcall
  | cons o rest =>
      rw [hobs] at hcall
      dsimp only at hcall
      by_cases hcond : o.id ∉ m.reactor.disabled ∧ o.accepts m.notification = true
      · rw [if_pos hcond, Option.some.injEq] at hcall
        have hmem : o ∈ m.observersToNotify := by
          rw [hobs]
          exact List.mem_cons_self
        rcases ReactorLoop.Safe.called h hmem hcond.1 with
          haccept | ⟨j, f, hf, hd, ⟨d, ht⟩, hall⟩
        · rw [hcall] at haccept
          cases haccept
        · rw [hcall] at ht
          obtain ⟨method', hmethod, heq⟩ := List.mem_map.mp ht
          obtain ⟨hobject, rfl⟩ := Target.mk.inj heq
          obtain rfl : j = i := ObjectId.session.inj hobject
          obtain ⟨c, hc, rfl⟩ := Option.map_eq_some_iff.mp ((List.getElem?_map).symm.trans hf)
          exact ⟨c, hc, hd, ⟨d, hmethod⟩, hall⟩
      · rw [if_neg hcond] at hcall
        cases hcall

/-- A handler shows if it completes `Close`. -/
theorem onNotify_effect {m : Machine} (h : m.Safe) {i : ℕ} {method : Method} (o : Outcomes)
    (hcall : m.nextCall = some ⟨.session i, method⟩) :
    Effect m (.notify o) (m.onNotify i method o) := by
  obtain ⟨c, hc, halive, -, hall⟩ := h.alive hcall
  have hclose : m.completesClose (.notify o) = tearsDown method o c.session := by
    unfold Machine.completesClose
    rw [Machine.calledSession_eq hcall hc]
    rfl
  have hafter := handler_after (w := c.world m.reactor) halive method o
  have hsub := remaining_sub (handler method o (c.world m.reactor)).1 m.observersToNotify
  unfold Machine.onNotify
  rw [hc]
  dsimp only
  rw [hafter]
  rcases handle_face method o (c.world m.reactor) with ⟨ht, hface, hreactor⟩ | ⟨ht, v, hv, heq⟩
  · exact .quiet (hclose.trans ht) rfl rfl (Machine.faces_set hc hface) hreactor (.of_sub hsub)
  · -- the handler's own work, and then `Close`
    have hface : (Cell.ofWorld v).face = c.face := hv.1
    have hcell : m.faces[i]? = some (Cell.ofWorld v).face := by
      rw [hface]
      exact Machine.faces_of_some hc
    have hdel : (Cell.ofWorld v).face.deletions = c.face.deletions := by rw [hface]
    have hall' : ∀ d, targets m.reactor (v.session.socket d).id = sideTargets (.session i) d := by
      intro d
      have hid : (v.session.socket d).id = (c.session.socket d).id :=
        congrArg (fun f : Face => f.socket d) hface
      rw [hid, hall d]
    refine .torn i v (hclose.trans ht) rfl rfl hcell (hdel.trans halive) hv.2 hall' ?_ ?_ hsub
    · change (m.sessions.set i _).map Cell.face = _
      rw [List.map_set, heq, torn_face]
      rfl
    · rw [heq]

/-- The steps of `run` outside the observers do not show, except for the poll. -/
theorem quiet_of_eq {m m' : Machine} {l : Label} (hclose : m.completesClose l = false)
    (hserver : m'.server = m.server) (hnext : m'.nextSocket = m.nextSocket)
    (hsessions : m'.sessions = m.sessions) (hreactor : m'.reactor = m.reactor)
    (hsnapshot : SnapshotOk m m') : Effect m l m' :=
  .quiet hclose hserver hnext (congrArg (List.map Cell.face) hsessions) hreactor hsnapshot

theorem dispatch_effect (m : Machine) : Effect m .dispatch (step m .dispatch) := by
  have hquiet : ∀ m', m'.server = m.server → m'.nextSocket = m.nextSocket →
      m'.sessions = m.sessions → m'.reactor = m.reactor → SnapshotOk m m' → Effect m .dispatch m' :=
    fun m' => quiet_of_eq rfl
  unfold step
  dsimp only
  split
  · split
    · exact hquiet _ rfl rfl rfl rfl fun o ho => .inr ⟨_, ho⟩
    · exact hquiet _ rfl rfl rfl rfl (.of_sub fun _ ho => ho)
  · exact hquiet _ rfl rfl rfl rfl fun o ho => .inr ⟨_, ho⟩
  · exact hquiet _ rfl rfl rfl rfl (.of_sub fun _ ho => ho)

/-- **What a step does**, from a state with the invariant. -/
theorem step_effect {m m' : Machine} {l : Label} (h : m.Safe) (hstep : Step m l m') :
    Effect m l m' := by
  obtain ⟨hadm, rfl⟩ := hstep
  have hsame : ∀ m', m'.observersToNotify = m.observersToNotify → SnapshotOk m m' :=
    fun m' heq => .of_sub fun o ho => heq ▸ ho
  cases l with
  | stop => exact quiet_of_eq rfl rfl rfl rfl rfl (hsame _ rfl)
  | poll result => exact .polled rfl rfl rfl rfl rfl rfl
  | idle => exact quiet_of_eq rfl rfl rfl rfl rfl (hsame _ rfl)
  | shutdown => exact quiet_of_eq rfl rfl rfl rfl rfl (hsame _ rfl)
  | dispatch => exact dispatch_effect m
  | broadcast delegates =>
      unfold step
      dsimp only
      split
      · exact quiet_of_eq rfl rfl rfl rfl rfl (hsame _ rfl)
      · exact quiet_of_eq rfl rfl rfl rfl rfl (hsame _ rfl)
  | skip => exact quiet_of_eq rfl rfl rfl rfl rfl (.of_sub fun _ ho => List.mem_of_mem_tail ho)
  | accept connection =>
      cases connection with
      | none =>
          -- the exception ends the walk over the snapshot
          refine quiet_of_eq rfl rfl rfl rfl rfl (.of_sub ?_)
          intro o ho
          exact absurd ho List.not_mem_nil
      | some a => exact onAccept_effect m _ rfl (hadm.2 a rfl)
  | notify o =>
      cases hcall : m.nextCall with
      | none =>
          rw [Admissible, hcall] at hadm
          cases hadm
      | some t =>
          obtain ⟨object, method⟩ := t
          cases object with
          | acceptor =>
              rw [Admissible, hcall] at hadm
              cases hadm
          | session i =>
              have heq : step m (.notify o) = m.onNotify i method o := by
                unfold step
                rw [hcall]
              rw [heq]
              exact onNotify_effect h o hcall
  | arrive i d bs => exact onSession_effect m _ rfl i fun w => arrive_sameFace w d bs
  | connectDone i status => exact onSession_effect m _ rfl i fun w => connectDone_sameFace w status

/-! ## Every run -/

theorem SnapshotOk.safe {m m' : Machine} (h : m.Safe) (hok : SnapshotOk m m') :
    ∀ o ∈ m'.observersToNotify, o.id ∉ m.reactor.disabled →
      ∃ p, o ∈ (m.reactor.notifiers p).observers := by
  intro o ho henabled
  rcases hok o ho with hin | hp
  · exact h.snapshot o hin henabled
  · exact hp

/-- What the registry is after the session has been torn down. -/
theorem Machine.Safe.torn_becomes {m : Machine} (h : m.Safe) {i : ℕ} {w : World}
    (hw : m.faces[i]? = some (Cell.ofWorld w).face) (hold : w.reactor = m.reactor)
    (hall : ∀ d, targets m.reactor (w.session.socket d).id = sideTargets (.session i) d) :
    Becomes m.reactor w.torn.reactor (Function.update
      (Function.update (targets m.reactor) w.session.m_front.id []) w.session.m_back.id []) := by
  have hne : w.session.m_back.id ≠ w.session.m_front.id := by
    intro heq
    cases (h.socket_inj i i _ _ .back .front hw hw heq).2
  have hthis : w.session.this = .session i := h.this i _ hw
  rw [← hold, ← hthis] at hall
  rw [← hold]
  exact ReactorLoop.torn_becomes (hold ▸ h.wf) hne hall

/-- What it is after a new session has been registered. -/
theorem Machine.Safe.started_becomes {m : Machine} (h : m.Safe) (sockfd backFd : Fd)
    (status : ConnectStatus) (service : Option ServiceKind) (this : ObjectId) :
    Becomes m.reactor (started backFd status service this (m.acceptConnection sockfd)
        (m.nextSocket + 1) m.reactor).reactor
      (Function.update (Function.update (targets m.reactor) m.nextSocket (sideTargets this .front))
        (m.nextSocket + 1) (sideTargets this .back)) := by
  have hfree : targets m.reactor (m.acceptConnection sockfd).id = [] :=
    ReactorLoop.Safe.targets_new h le_rfl
  have hfree' : targets m.reactor (m.nextSocket + 1) = [] :=
    ReactorLoop.Safe.targets_new h (Nat.le_succ _)
  exact ReactorLoop.started_becomes h.wf hfree hfree' (Nat.succ_ne_self _) backFd status service
    this

/-- **The step lemma**: every step keeps the invariant. -/
theorem safe_step {m m' : Machine} {l : Label} (h : m.Safe) (hstep : Step m l m') : m'.Safe := by
  have hlength : m.faces.length = m.sessions.length := List.length_map _
  have hsafe := h
  unfold Machine.Safe at h ⊢
  cases step_effect hsafe hstep with
  | quiet hclose hserver hnext hfaces hreactor hsnapshot =>
      rw [hserver, hnext, hfaces, hreactor]
      exact h.resnapshot (hsnapshot.safe h)
  | polled hclose hserver hnext hfaces hreactor hsnapshot =>
      rw [hserver, hnext, hfaces, hreactor, hsnapshot]
      exact h.setPollSet _
  | torn i w hclose hserver hnext hw halive hold hall hfaces hreactor hsnapshot =>
      rw [hserver, hnext, hfaces, hreactor]
      exact h.torn hw halive (hsafe.torn_becomes hw hold hall) hsnapshot
  | registered a status service w hclose hok hconnect hw hserver hnext hfaces hreactor hsnapshot =>
      rw [hserver, hnext, hfaces, hreactor]
      subst hw
      refine h.created ⟨hlength ▸ rfl, rfl, rfl, rfl, rfl⟩ (.inl ?_) hsnapshot
      rw [hlength]
      exact hsafe.started_becomes a.sockfd a.setup.backFd status service _
  | unregistered f hclose hnew hopen hserver hnext hfaces hreactor hsnapshot =>
      rw [hserver, hnext, hfaces, hreactor]
      exact h.created hnew (.inr rfl) hsnapshot
  | refused hclose hserver hnext hfaces hreactor hsnapshot =>
      rw [hserver, hnext, hfaces, hreactor]
      exact h.grow.shorten hsnapshot

/-- Listening, only the acceptor is registered. -/
theorem targets_listening (sockfd : Fd) :
    targets (Machine.listening sockfd).reactor
      = Function.update (targets {}) 0 [Machine.acceptTarget] := by
  have hspec := addEventHandler_spec wf_empty { SocketImpl.unopened 0 with sockfd := sockfd }
    Machine.acceptTarget
  exact hspec.view.trans (add_of_notMem List.not_mem_nil)

theorem listening_safe (sockfd : Fd) : (Machine.listening sockfd).Safe := by
  have hspec := addEventHandler_spec wf_empty { SocketImpl.unopened 0 with sockfd := sockfd }
    Machine.acceptTarget
  have hview := targets_listening sockfd
  refine
    { this := ?_, server_lt := Nat.one_pos, socket_lt := ?_, socket_inj := ?_, once := ?_,
      wf := hspec.wf, registered := ?_, whole := ?_, snapshot := ?_ }
  · intro i f hf
    cases hf
  · intro i f d hf
    cases hf
  · intro i j f f' d d' hf
    cases hf
  · intro i f hf
    cases hf
  · intro s t ht
    left
    rw [hview] at ht
    by_cases hs : s = 0
    · rw [hs, Function.update_self, List.mem_singleton] at ht
      exact ⟨hs, ht⟩
    · rw [Function.update_of_ne hs] at ht
      exact absurd ht List.not_mem_nil
  · intro i f hf
    cases hf
  · intro o ho
    exact absurd ho List.not_mem_nil

/-- The states that the reactor comes to. -/
theorem safe_of_isRun {sockfd : Fd} {ts : List (Transition Machine Label)}
    (hrun : IsRun Step (Machine.listening sockfd) ts) :
    ∀ m ∈ states (Machine.listening sockfd) ts, m.Safe :=
  invariant_states (I := Machine.Safe) (fun _ _ _ => safe_step) (listening_safe sockfd) hrun

/-- **No notification reaches a destroyed session.** In every state of every run,
no session has been deleted twice and none has been used after its deletion, and
when the next observer calls a method of a session, the session is there. -/
theorem no_call_after_delete (sockfd : Fd) {ts : List (Transition Machine Label)}
    (hrun : IsRun Step (Machine.listening sockfd) ts) :
    ∀ m ∈ states (Machine.listening sockfd) ts,
      (∀ c ∈ m.sessions, c.deletions ≤ 1 ∧ c.touched = false) ∧
        ∀ i method, m.nextCall = some ⟨.session i, method⟩ →
          ∃ c, m.sessions[i]? = some c ∧ c.deletions = 0 := by
  intro m hm
  have hsafe := safe_of_isRun hrun m hm
  constructor
  · intro c hc
    obtain ⟨i, hi⟩ := List.getElem?_of_mem hc
    exact hsafe.toLayout.once i _ (Machine.faces_of_some hi)
  · intro i method hcall
    obtain ⟨c, hc, halive, -⟩ := hsafe.alive hcall
    exact ⟨c, hc, halive⟩

/-- Two sessions: the first one closes at an error of its front socket, in the
middle of a poll result that names both its sockets, the second one in the
shutdown broadcast, before the turn of its front socket. -/
def twoSessions : List Label :=
  [.poll (some [(0, ⟨true, false, false⟩)]), .dispatch,
   .accept (some ⟨5, sampleSetup .byPass, {}⟩), .connectDone 0 .succeeded,
   .poll (some [(2, ⟨false, true, false⟩), (1, ⟨true, false, true⟩), (2, ⟨true, true, true⟩)]),
   .dispatch, .notify {}, .skip, .skip, .skip,
   .dispatch, .notify { receive := .bytes 1 [], send := .accepts 1 }, .skip, .skip,
   .dispatch, .skip, .skip, .notify {}, .dispatch, .dispatch, .dispatch,
   .poll (some [(0, ⟨true, false, false⟩)]), .dispatch,
   .accept (some ⟨6, { sampleSetup .byPass with backFd := 8 }, {}⟩),
   .stop, .shutdown, .broadcast [4, 0, 3], .dispatch, .skip, .skip, .notify {}, .skip,
   .dispatch, .skip, .dispatch]

theorem allowed_twoSessions : Allowed Admissible step (Machine.listening 3) twoSessions := by
  decide +kernel

theorem no_call_after_delete_twoSessions :
    IsRun Step (Machine.listening 3) (unroll step (Machine.listening 3) twoSessions) ∧
      ∀ m ∈ states (Machine.listening 3) (unroll step (Machine.listening 3) twoSessions),
        (∀ c ∈ m.sessions, c.deletions ≤ 1 ∧ c.touched = false) ∧
          ∀ i method, m.nextCall = some ⟨.session i, method⟩ →
            ∃ c, m.sessions[i]? = some c ∧ c.deletions = 0 :=
  ⟨isRun_unroll allowed_twoSessions, no_call_after_delete 3 (isRun_unroll allowed_twoSessions)⟩

end PocoProxy.ReactorLoop
