/-
  cpp_proxy — the lookups of the sessions (config.hpp, session.hpp).

  A session looks its server up by the local port of its client, on a worker
  thread, at any time after it was accepted.  The table may have been replaced by
  then, `get_proxy_server` takes `servers[0]`, and the session uses the result
  without a test.

  * `Main.LookupFinds`: every lookup gives a server of an entity of the port;
  * `Main.KeepsServing`: every accepted file has servers for each of its ports, and
    a reload keeps the ports of the clients that have not been looked up;
  * `Maps`: the map has no other ports than those of the table, and an acceptor
    that is not in it is closed;
  * `lookupFinds_of_keepsServing`: under this condition no lookup misses.
-/
import CppProxy.Lib.Runs
import CppProxy.Main

namespace CppProxy

open Runs

/-! ## The condition -/

/-- The next lookup of any session finds a server. -/
def Main.LookupFinds (s : Main) : Prop :=
  ∀ k s', s.step (.setup k) = some s' →
    ∃ e ∈ s.config.entities.elems, e.listenPort = (s.sessions k).port ∧
      ∃ server ∈ e.servers, (s'.sessions k).server = some (.found server)

/-- Each entity has a server, and listens on the port that it names: port 0 is
    bound to another one. -/
def Entities.Serving (entities : Entities) : Prop :=
  ∀ e ∈ entities.elems, e.servers ≠ [] ∧ e.listenPort ≠ 0

/-- The table has the ports of the sessions that have not looked up their server,
    and of the clients whose session has not started. -/
def Main.Awaits (s : Main) (entities : Entities) : Prop :=
  (∀ k < s.nSessions, (s.sessions k).server = none → entities.HasPort (s.sessions k).port) ∧
    ∀ i < s.nListeners, (s.listeners i).pc = .accepted → entities.HasPort (s.acceptorOf i).port

instance Entities.decidableServing (entities : Entities) : Decidable entities.Serving :=
  inferInstanceAs (Decidable (∀ _ ∈ _, _))

instance Main.decidableAwaits (s : Main) (entities : Entities) : Decidable (s.Awaits entities) :=
  inferInstanceAs (Decidable (_ ∧ _))

/-- Every accepted file serves, and a reload keeps the ports that are waited for. -/
def Main.KeepsServing (s : Main) : MainEvent → Prop
  | .parse => ∀ entities ∈ table s.file.content, entities.Serving
  | .reload _ _ => ∀ entities ∈ table s.file.content, entities.Serving ∧ s.Awaits entities
  | _ => True

instance Main.decidableKeepsServing (s : Main) : ∀ e, Decidable (s.KeepsServing e)
  | .parse => inferInstanceAs (Decidable (∀ _ ∈ _, _))
  | .reload _ _ => inferInstanceAs (Decidable (∀ _ ∈ _, _))
  | .write _ | .listen _ _ | .stamp | .poll | .connect _ | .resume _ | .setup _ =>
    inferInstanceAs (Decidable True)

/-! ## The map -/

/-- The map has only ports of `K`, every open acceptor is in it under the port that
    it is bound to, and a client that is accepted has a port of `Q`. -/
structure Maps (s : Main) (K Q : UInt16 → Prop) : Prop where
  keys : ∀ p id, s.acceptors p = some id → K p
  opened : ∀ id < s.nObjects, (s.objects id).isOpen → s.acceptors (s.objects id).port = some id
  owned : ∀ i < s.nListeners, (s.listeners i).acceptor < s.nObjects
  accepted : ∀ i < s.nListeners, (s.listeners i).pc = .accepted → Q (s.acceptorOf i).port

namespace Maps

variable {s s' : Main} {K Q : UInt16 → Prop}

theorem imp (h : Maps s K Q) {L : UInt16 → Prop} (hL : ∀ p, K p → L p) : Maps s L Q :=
  ⟨fun p id hp => hL p (h.keys p id hp), h.opened, h.owned, h.accepted⟩

/-- Sessions, the file and the table are no part of it. -/
theorem congr (h : Maps s K Q) (ha : s'.acceptors = s.acceptors) (ho : s'.objects = s.objects)
    (hn : s'.nObjects = s.nObjects) (hl : s'.listeners = s.listeners)
    (hm : s'.nListeners = s.nListeners) : Maps s' K Q where
  keys := by rw [ha]; exact h.keys
  opened := by rw [ha, ho, hn]; exact h.opened
  owned := by rw [hl, hm, hn]; exact h.owned
  accepted := by
    have hof : ∀ i, s'.acceptorOf i = s.acceptorOf i := by
      intro i
      simp only [Main.acceptorOf, hl, ho]
    simpa only [hof, hl, hm] using h.accepted

/-- A listener goes on; with a client, its acceptor must have a port of `Q`. -/
theorem setListener (h : Maps s K Q) (i : ℕ) {pc : ListenerPc}
    (hpc : pc = .accepted → Q (s.acceptorOf i).port) : Maps (s.setListener i pc) K Q := by
  have hacc := s.setListener_acceptor i pc
  have hof : ∀ j, (s.setListener i pc).acceptorOf j = s.acceptorOf j := fun j =>
    congrArg s.objects (hacc j)
  refine ⟨h.keys, h.opened, fun j hj => ?_, fun j hj hp => ?_⟩
  · rw [hacc]; exact h.owned j hj
  · rw [hof]
    by_cases hji : j = i
    · subst hji
      exact hpc (by simpa [Main.setListener] using hp)
    · exact h.accepted j hj (by simpa [Main.setListener, hji] using hp)

/-- A listener starts on a port that is not in the map, or does not come to listen. -/
theorem listener (h : Maps s K Q) {e : ProxyEntity} (hK : ¬ K e.listenPort)
    (h₀ : e.listenPort ≠ 0) (opens : Bool) (port : UInt16) :
    Maps (s.listener e opens port) (fun p => p = e.listenPort ∨ K p) Q := by
  cases opens with
  | false => exact h.imp fun _ => .inr
  | true =>
    have hnone : s.acceptors e.listenPort = none :=
      Option.eq_none_iff_forall_ne_some.2 fun id hid => hK (h.keys _ id hid)
    have hmap : ∀ p, (s.listener e true port).acceptors p =
        if p = e.listenPort then some s.nObjects else s.acceptors p := by
      intro p
      simp [Main.listener, hnone, Function.update_apply]
    have hobj : ∀ id < s.nObjects, (s.listener e true port).objects id = s.objects id :=
      fun id hid => by simp [Main.listener, Nat.ne_of_lt hid]
    have hnew : (s.listener e true port).objects s.nObjects = ⟨e.listenPort, e.listenIp, true⟩ := by
      simp [Main.listener, h₀]
    have hlis : ∀ i < s.nListeners, (s.listener e true port).listeners i = s.listeners i :=
      fun i hi => by simp [Main.listener, Nat.ne_of_lt hi]
    have hlast : (s.listener e true port).listeners s.nListeners = ⟨s.nObjects, .accepting⟩ := by
      simp [Main.listener]
    have hnO : (s.listener e true port).nObjects = s.nObjects + 1 := by simp [Main.listener]
    have hnL : (s.listener e true port).nListeners = s.nListeners + 1 := by simp [Main.listener]
    refine ⟨fun p id hp => ?_, fun id hid ho => ?_, fun i hi => ?_, fun i hi hp => ?_⟩
    · rw [hmap] at hp
      split at hp
      · exact .inl ‹_›
      · exact .inr (h.keys p id hp)
    · rw [hmap]
      rcases Nat.lt_succ_iff_lt_or_eq.1 (hnO ▸ hid) with hid | rfl
      · rw [hobj id hid] at ho ⊢
        have hin := h.opened id hid ho
        have hne : (s.objects id).port ≠ e.listenPort := fun he => hK (he ▸ h.keys _ id hin)
        rw [if_neg hne]
        exact hin
      · simp [hnew]
    · rw [hnO]
      rcases Nat.lt_succ_iff_lt_or_eq.1 (hnL ▸ hi) with hi | rfl
      · rw [hlis i hi]; exact Nat.lt_succ_of_lt (h.owned i hi)
      · rw [hlast]; exact Nat.lt_succ_self _
    · rcases Nat.lt_succ_iff_lt_or_eq.1 (hnL ▸ hi) with hi | rfl
      · rw [hlis i hi] at hp
        rw [Main.acceptorOf, hlis i hi, hobj _ (h.owned i hi)]
        exact h.accepted i hi hp
      · rw [hlast] at hp; cases hp

/-- An acceptor is closed and erased. -/
theorem closeAcceptor (h : Maps s K Q) (e : ProxyEntity) :
    Maps (s.closeAcceptor e) (fun p => K p ∧ p ≠ e.listenPort) Q := by
  cases hm : s.acceptors e.listenPort with
  | none =>
    rw [Main.closeAcceptor, hm]
    refine ⟨fun p id hp => ⟨h.keys p id hp, ?_⟩, h.opened, h.owned, h.accepted⟩
    rintro rfl
    rw [hm] at hp; cases hp
  | some id₀ =>
    have hmap : ∀ p, (s.closeAcceptor e).acceptors p =
        if p = e.listenPort then none else s.acceptors p := by
      intro p
      simp [Main.closeAcceptor, hm, Function.update_apply]
    have hport : ∀ id, ((s.closeAcceptor e).objects id).port = (s.objects id).port := by
      intro id
      by_cases hid : id = id₀
      · simp [Main.closeAcceptor, hm, hid]
      · simp [Main.closeAcceptor, hm, hid]
    have hopen : ∀ id, ((s.closeAcceptor e).objects id).isOpen →
        id ≠ id₀ ∧ (s.objects id).isOpen := by
      intro id ho
      by_cases hid : id = id₀
      · simp [Main.closeAcceptor, hm, hid] at ho
      · exact ⟨hid, by simpa [Main.closeAcceptor, hm, hid] using ho⟩
    have hrest : (s.closeAcceptor e).listeners = s.listeners ∧
        (s.closeAcceptor e).nListeners = s.nListeners ∧
        (s.closeAcceptor e).nObjects = s.nObjects := by simp [Main.closeAcceptor, hm]
    obtain ⟨hl, hnL, hnO⟩ := hrest
    refine ⟨fun p id hp => ?_, fun id hid ho => ?_, ?_, fun i hi hp => ?_⟩
    · rw [hmap] at hp
      split at hp
      · cases hp
      · exact ⟨h.keys p id hp, ‹_›⟩
    · obtain ⟨hne, ho⟩ := hopen id ho
      have hin := h.opened id (hnO ▸ hid) ho
      -- another acceptor is open under the port only if it is the one in the map
      rw [hport, hmap, if_neg fun he => hne (Option.some.inj ((he ▸ hin).symm.trans hm))]
      exact hin
    · rw [hl, hnL, hnO]; exact h.owned
    · rw [hl] at hp
      rw [Main.acceptorOf, hport, hl]
      exact h.accepted i (hnL ▸ hi) hp

end Maps

/-! ## Runs -/

/-- The table serves, and it has the ports of all who will look up a server. -/
structure Serves (s : Main) : Prop where
  maps : Maps s s.Listened s.config.entities.HasPort
  serving : s.config.entities.Serving
  sessions : ∀ k < s.nSessions, (s.sessions k).server = none →
    s.config.entities.HasPort (s.sessions k).port

namespace Serves

variable {s s' : Main}

theorem init (file : Version) : Serves (Main.init file) where
  maps := ⟨fun p id hp => by simp [Main.init] at hp, fun id hid => by simp [Main.init] at hid,
    fun i hi => by simp [Main.init] at hi, fun i hi => by simp [Main.init] at hi⟩
  serving e he := by simp [Main.init, KeyedSet.empty] at he
  sessions k hk := by simp [Main.init] at hk

/-- The table and the sessions do not change. -/
theorem congr (h : Serves s)
    (hm : Maps s s.Listened s.config.entities.HasPort →
      Maps s' s.Listened s.config.entities.HasPort)
    (hc : s'.config.entities = s.config.entities) (hp : s'.posted = s.posted)
    (hs : s'.sessions = s.sessions) (hn : s'.nSessions = s.nSessions) : Serves s' where
  maps := by
    rw [show s'.Listened = s.Listened by simp only [funext_iff, Main.Listened, hc, hp]; simp, hc]
    exact hm h.maps
  serving := by rw [hc]; exact h.serving
  sessions := by rw [hs, hn, hc]; exact h.sessions

/-- **An accepted reload** that serves and keeps the ports that are waited for. -/
theorem reload (h : Serves s) (hnil : s.posted = []) {c : Config}
    (hc : s.config.parseConf s.file.content = .ok c) (hserving : c.entities.Serving)
    (hwait : s.Awaits c.entities) (lastTime : ℕ) (fails : List UInt16) (port : UInt16)
    (hrest : SameRest { s with config := c, poll := .waiting lastTime }
      (s.reload lastTime fails port)) : Serves (s.reload lastTime fails port) := by
  have hm := h.maps
  rw [Starting.listened_eq hnil] at hm
  have hmaps : Maps (s.reload lastTime fails port) c.entities.HasPort c.entities.HasPort :=
    reload_ind (P := fun s' K => Maps s' K c.entities.HasPort) hc
      ⟨hm.keys, hm.opened, hm.owned, hwait.2⟩
      (fun s' K e h' he hK => h'.listener hK (hserving e he).2 _ port)
      fun s' K e h' _ => h'.closeAcceptor e
  refine ⟨?_, by rw [hrest.config]; exact hserving, ?_⟩
  · rw [Starting.listened_eq (hrest.posted.trans hnil), hrest.config]
    exact hmaps
  · rw [hrest.nSessions, hrest.sessions, hrest.config]
    exact hwait.1

theorem step (hs : Starting s) (h : Serves s) {e : MainEvent} (hC : s.KeepsServing e)
    (hst : s.step e = some s') : Serves s' := by
  cases e with
  | write v =>
    obtain ⟨-, rfl⟩ := of_write hst
    exact h.congr (fun hm => hm.congr rfl rfl rfl rfl rfl) rfl rfl rfl rfl
  | parse =>
    obtain ⟨hstart, c, hc, rfl⟩ := of_parse hst
    obtain ⟨-, -, -, hl, hk⟩ := hs.unstarted hstart
    refine ⟨?_, hC c.entities (parseConf_ok hc).1, fun k hk' => ?_⟩
    · rw [hs.listened_parse hstart]
      have hnone : ∀ i, ¬ i < s.nListeners := fun i => by omega
      exact ⟨h.maps.keys, h.maps.opened, h.maps.owned, fun i hi => absurd hi (hnone i)⟩
    · exact absurd (hk ▸ hk') (Nat.not_lt_zero k)
  | listen opens port =>
    obtain ⟨e, posted, hp, rfl⟩ := of_listen hst
    obtain ⟨hnew, heq⟩ := hs.listened_listen hp opens port
    have hrest := SameRest.listener { s with posted } e opens port
    have hm : Maps { s with posted } s.Listened s.config.entities.HasPort :=
      h.maps.congr rfl rfl rfl rfl rfl
    have he := h.serving e (hs.posted e (by simp [hp]))
    refine ⟨?_, by rw [hrest.config]; exact h.serving, ?_⟩
    · rw [heq, hrest.config]
      exact hm.listener hnew he.2 opens port
    · rw [hrest.nSessions, hrest.sessions, hrest.config]
      exact h.sessions
  | stamp =>
    obtain ⟨-, -, -, rfl⟩ := of_stamp hst
    exact h.congr (fun hm => hm.congr rfl rfl rfl rfl rfl) rfl rfl rfl rfl
  | poll =>
    obtain ⟨lastTime, -, ⟨-, rfl⟩ | ⟨-, rfl⟩⟩ := of_poll hst
    · exact h
    · exact h.congr (fun hm => hm.congr rfl rfl rfl rfl rfl) rfl rfl rfl rfl
  | reload fails port =>
    obtain ⟨lastTime, hp, rfl⟩ := of_reload hst
    have hnil := hs.polling (by rw [hp]; simp)
    rcases reload_cases s lastTime fails port with ⟨c, hc, hrest⟩ | ⟨c, hc, heq⟩
    · obtain ⟨hserving, hwait⟩ := hC c.entities (parseConf_ok hc).1
      exact h.reload hnil hc hserving hwait lastTime fails port hrest
    · have ht : c.entities = s.config.entities := congrArg Prod.fst (parseConf_error hc).2
      rw [heq]
      exact h.congr (fun hm => hm.congr rfl rfl rfl rfl rfl) ht rfl rfl rfl
  | connect i =>
    obtain ⟨hi, -, ho, rfl⟩ := of_connect hst
    -- an open acceptor is in the map, so its port is in the table
    have hin := h.maps.opened _ (h.maps.owned i hi) ho
    exact h.congr (fun hm => hm.setListener i fun _ => (hm.keys _ _ hin).1) rfl rfl rfl rfl
  | resume i =>
    obtain ⟨hi, ⟨hpc, rfl⟩ | rfl | ⟨-, rfl⟩⟩ := of_resume hst
    · have hport := h.maps.accepted i hi hpc
      have hm : Maps (s.setListener i .accepting) s.Listened s.config.entities.HasPort :=
        h.maps.setListener i (by simp)
      refine ⟨hm.congr rfl rfl rfl rfl rfl, h.serving, fun k hk hnone => ?_⟩
      rcases Nat.lt_succ_iff_lt_or_eq.1 hk with hk | rfl
      · have hne : k ≠ s.nSessions := Nat.ne_of_lt hk
        simp only [Main.startSession, Main.setListener, Function.update_of_ne hne] at hnone ⊢
        exact h.sessions k hk hnone
      · simpa [Main.startSession, Main.setListener] using hport
    · exact h
    · exact h.congr (fun hm => hm.setListener i (by simp)) rfl rfl rfl rfl
  | setup k =>
    obtain ⟨-, -, rfl⟩ := of_setup hst
    refine ⟨h.maps.congr rfl rfl rfl rfl rfl, h.serving, fun j hj hnone => ?_⟩
    by_cases hjk : j = k
    · subst hjk
      simp at hnone
    · simp only [Function.update_of_ne hjk] at hnone ⊢
      exact h.sessions j hj hnone

end Serves

/-! ## No lookup misses -/

/-- **The lookups find a server** while the accepted files have servers for all of
    their ports and the reloads keep the ports that are waited for. -/
theorem lookupFinds_of_keepsServing {file : Version} {s : Main}
    (h : Reach Main.step Main.KeepsServing (Main.init file) s) : s.LookupFinds := by
  obtain ⟨-, hserves⟩ := h.inv (I := fun s => Starting s ∧ Serves s)
    ⟨Starting.init file, Serves.init file⟩
    fun _ _ _ hs hC he => ⟨hs.1.step he, hs.2.step hs.1 hC he⟩
  intro k s' hst
  obtain ⟨hk, hnone, rfl⟩ := of_setup hst
  obtain ⟨e, he, server, hmem, hport, hfound⟩ := getProxyServer_found
    (hserves.sessions k hk hnone) fun e he => (hserves.serving e he).1
  exact ⟨e, he, hport, server, hmem, by simp [hfound]⟩

/-- The session of port 81 has not looked up its server when 80 and 81 are replaced
    by 81 and 82; a client of 82 waits when the file is read again. -/
theorem lookupFinds_kept : ∃ s, Reach Main.step Main.KeepsServing
    (Main.init ⟨0, fileOf oneServer [80, 81]⟩) s ∧ s.LookupFinds ∧
      (s.step (.setup 0)).isSome ∧ (s.sessions 0).port = 81 ∧
        ¬ s.config.entities.HasPort 80 ∧ s.times.length = 3 := by
  obtain ⟨s, hs, hp⟩ := exists_runIf Main.step Main.KeepsServing
    (Main.init ⟨0, fileOf oneServer [80, 81]⟩)
    [.parse, .listen true 0, .listen true 0, .stamp, .connect 1, .resume 1,
      .write ⟨1, fileOf oneServer [81, 82]⟩, .poll, .reload [] 0, .connect 2,
      .write ⟨2, fileOf oneServer [82, 81]⟩, .poll, .reload [] 0]
    (fun s => (s.step (.setup 0)).isSome && decide ((s.sessions 0).port = 81) &&
      decide (¬ s.config.entities.HasPort 80) && decide (s.times.length = 3)) (by decide +kernel)
  simp only [Bool.and_eq_true, decide_eq_true_eq] at hp
  obtain ⟨⟨⟨h₁, h₂⟩, h₃⟩, h₄⟩ := hp
  exact ⟨s, hs, lookupFinds_of_keepsServing hs, h₁, h₂, h₃, h₄⟩

/-- A lookup that gives no server. -/
theorem Main.not_lookupFinds_of {s : Main} {k : ℕ} {r : Config.Lookup}
    (hr : ∀ server, r ≠ .found server)
    (h : ((s.step (.setup k)).any fun s' => decide ((s'.sessions k).server = some r)) = true) :
    ¬ s.LookupFinds := by
  obtain ⟨s', hst, hs'⟩ := (Option.any_eq_true _ _).1 h
  intro hf
  obtain ⟨e, -, -, server, -, hfound⟩ := hf k s' hst
  rw [of_decide_eq_true hs'] at hfound
  exact hr server (Option.some.inj hfound)

/-- **A lookup may miss**: the port of a session is removed before its setup, so the
    result is null; or a file gives its port no server, and `servers[0]` is undefined. -/
theorem not_lookupFinds :
    (∃ s, Reach Main.step (fun _ _ => True) (Main.init ⟨0, fileOf oneServer [80, 81]⟩) s ∧
      ¬ s.LookupFinds) ∧
    ∃ s, Reach Main.step (fun _ _ => True) (Main.init ⟨0, fileOf [] [80]⟩) s ∧
      ¬ s.LookupFinds := by
  constructor
  · obtain ⟨s, hs, hp⟩ := exists_run Main.step (fun _ _ => True)
      (Main.init ⟨0, fileOf oneServer [80, 81]⟩)
      [.parse, .listen true 0, .listen true 0, .stamp, .connect 0, .resume 0,
        .write ⟨1, fileOf oneServer [81]⟩, .poll, .reload [] 0]
      (fun s => (s.step (.setup 0)).any fun s' : Main =>
        decide ((s'.sessions 0).server = some Config.Lookup.null))
      (fun _ _ _ => trivial) (by decide +kernel)
    exact ⟨s, hs, Main.not_lookupFinds_of (by simp) hp⟩
  · obtain ⟨s, hs, hp⟩ := exists_run Main.step (fun _ _ => True) (Main.init ⟨0, fileOf [] [80]⟩)
      [.parse, .listen true 0, .stamp, .connect 0, .resume 0]
      (fun s => (s.step (.setup 0)).any fun s' : Main =>
        decide ((s'.sessions 0).server = some Config.Lookup.undefined))
      (fun _ _ _ => trivial) (by decide +kernel)
    exact ⟨s, hs, Main.not_lookupFinds_of (by simp) hp⟩

end CppProxy
