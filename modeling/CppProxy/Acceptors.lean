/-
  cpp_proxy — the acceptors (cpp_proxy.cpp).

  A reload starts a listener for each port that is new and closes the acceptor of
  each port that is gone.  When every listener comes to listen, the map follows
  the table.

  * `Tracks`: the map has these ports, each with an open acceptor of its own, and
    every open acceptor has one accept loop;
  * `Kept`: an acceptor stays in the map, and is not closed;
  * `Main.Tracking`: the map has the ports of the table, each acceptor open and
    with exactly one live loop;
  * `acceptors_track`: this holds from the start of the last listener on, and
    every accepted reload adds the new ports, deletes the old ones and keeps the
    acceptors of the others.
-/
import CppProxy.Lib.Runs
import CppProxy.Main

namespace CppProxy

open Runs

/-! ## The map and the loops -/

/-- The map has the ports `K`, each with an open acceptor of its own; every open
    acceptor has a live accept loop, and no acceptor has two loops. -/
structure Tracks (s : Main) (K : UInt16 → Prop) : Prop where
  keys : ∀ p, (s.acceptors p).isSome ↔ K p
  mapped : ∀ p id, s.acceptors p = some id → id < s.nObjects ∧ (s.objects id).isOpen
  own : ∀ p q id, s.acceptors p = some id → s.acceptors q = some id → p = q
  owned : ∀ i < s.nListeners, (s.listeners i).acceptor < s.nObjects
  one : ∀ i < s.nListeners, ∀ j < s.nListeners,
    (s.listeners i).acceptor = (s.listeners j).acceptor → i = j
  live : ∀ id < s.nObjects, (s.objects id).isOpen →
    ∃ i < s.nListeners, (s.listeners i).acceptor = id ∧ (s.listeners i).pc ≠ .done

/-- The acceptors of the ports `P` stay in the map, and their state does not change. -/
def Kept (s s' : Main) (P : UInt16 → Prop) : Prop :=
  ∀ p id, P p → s.acceptors p = some id → s'.acceptors p = some id ∧ s'.objects id = s.objects id

theorem Kept.trans {s s' s'' : Main} {P Q : UInt16 → Prop} (h : Kept s s' P)
    (h' : Kept s' s'' Q) (hPQ : ∀ p, P p → Q p) : Kept s s'' P := by
  intro p id hp ha
  obtain ⟨ha', ho⟩ := h p id hp ha
  obtain ⟨ha'', ho'⟩ := h' p id (hPQ p hp) ha'
  exact ⟨ha'', ho'.trans ho⟩

namespace Tracks

variable {s s' : Main} {K : UInt16 → Prop}

theorem imp (h : Tracks s K) {L : UInt16 → Prop} (hL : ∀ p, K p ↔ L p) : Tracks s L :=
  ⟨fun p => (h.keys p).trans (hL p), h.mapped, h.own, h.owned, h.one, h.live⟩

/-- Sessions, the file and the table are no part of it. -/
theorem congr (h : Tracks s K) (ha : s'.acceptors = s.acceptors) (ho : s'.objects = s.objects)
    (hn : s'.nObjects = s.nObjects) (hl : s'.listeners = s.listeners)
    (hm : s'.nListeners = s.nListeners) : Tracks s' K where
  keys := by rw [ha]; exact h.keys
  mapped := by rw [ha, ho, hn]; exact h.mapped
  own := by rw [ha]; exact h.own
  owned := by rw [hl, hm, hn]; exact h.owned
  one := by rw [hl, hm]; exact h.one
  live := by rw [hl, hm, ho, hn]; exact h.live

/-- A listener ends only when its acceptor is closed. -/
theorem setListener (h : Tracks s K) (i : ℕ) {pc : ListenerPc}
    (hpc : pc = .done → (s.acceptorOf i).isOpen = false) : Tracks (s.setListener i pc) K := by
  have hacc := s.setListener_acceptor i pc
  refine ⟨h.keys, h.mapped, h.own, fun j hj => ?_, fun j hj j' hj' he => ?_, fun id hid ho => ?_⟩
  · rw [hacc]; exact h.owned j hj
  · rw [hacc, hacc] at he; exact h.one j hj j' hj' he
  · obtain ⟨j, hj, ha, hl⟩ := h.live id hid ho
    refine ⟨j, hj, (hacc j).trans ha, ?_⟩
    by_cases hji : j = i
    · subst hji
      simp only [Main.setListener, Function.update_self]
      intro hd
      have hc := hpc hd
      rw [Main.acceptorOf, ha] at hc
      exact absurd (hc.symm.trans ho) (by simp)
    · simpa [Main.setListener, hji] using hl

/-- A listener starts on a port that is not in the map. -/
theorem listener (h : Tracks s K) {e : ProxyEntity} (hK : ¬ K e.listenPort) (port : UInt16) :
    Tracks (s.listener e true port) (fun p => p = e.listenPort ∨ K p) ∧
      Kept s (s.listener e true port) fun _ => True := by
  have hnone : s.acceptors e.listenPort = none :=
    Option.not_isSome_iff_eq_none.1 fun hs => hK ((h.keys _).1 hs)
  have hobj : ∀ id < s.nObjects, (s.listener e true port).objects id = s.objects id := by
    intro id hid
    simp [Main.listener, Nat.ne_of_lt hid]
  have hlis : ∀ i < s.nListeners, (s.listener e true port).listeners i = s.listeners i := by
    intro i hi
    simp [Main.listener, Nat.ne_of_lt hi]
  have hmap : ∀ p, (s.listener e true port).acceptors p =
      if p = e.listenPort then some s.nObjects else s.acceptors p := by
    intro p
    simp [Main.listener, hnone, Function.update_apply]
  have hnO : (s.listener e true port).nObjects = s.nObjects + 1 := by simp [Main.listener]
  have hnL : (s.listener e true port).nListeners = s.nListeners + 1 := by simp [Main.listener]
  have hnew : (s.listener e true port).listeners s.nListeners = ⟨s.nObjects, .accepting⟩ := by
    simp [Main.listener]
  have hnewO : ((s.listener e true port).objects s.nObjects).isOpen := by simp [Main.listener]
  refine ⟨⟨fun p => ?_, fun p id hp => ?_, fun p q id hp hq => ?_, fun i hi => ?_,
    fun i hi j hj he => ?_, fun id hid ho => ?_⟩, fun p id _ hp => ?_⟩
  · rw [hmap]
    by_cases hpe : p = e.listenPort
    · simp [hpe]
    · simp [hpe, h.keys]
  · rw [hmap] at hp
    rw [hnO]
    split at hp
    · cases hp
      exact ⟨Nat.lt_succ_self _, hnewO⟩
    · obtain ⟨hid, ho⟩ := h.mapped p id hp
      exact ⟨by omega, by rw [hobj id hid]; exact ho⟩
  · rw [hmap] at hp hq
    split at hp
    · rename_i hpe
      split at hq
      · rename_i hqe
        rw [hpe, hqe]
      · cases hp
        exact absurd (h.mapped q _ hq).1 (lt_irrefl _)
    · split at hq
      · cases hq
        exact absurd (h.mapped p _ hp).1 (lt_irrefl _)
      · exact h.own p q id hp hq
  · rw [hnL] at hi
    rw [hnO]
    rcases Nat.lt_succ_iff_lt_or_eq.1 hi with hi | rfl
    · rw [hlis i hi]
      exact Nat.lt_succ_of_lt (h.owned i hi)
    · rw [hnew]
      exact Nat.lt_succ_self _
  · rw [hnL] at hi hj
    rcases Nat.lt_succ_iff_lt_or_eq.1 hi with hi | rfl <;>
      rcases Nat.lt_succ_iff_lt_or_eq.1 hj with hj | rfl
    · rw [hlis i hi, hlis j hj] at he
      exact h.one i hi j hj he
    · rw [hlis i hi, hnew] at he
      exact absurd (h.owned i hi) (by rw [he]; exact lt_irrefl _)
    · rw [hlis j hj, hnew] at he
      exact absurd (h.owned j hj) (by rw [← he]; exact lt_irrefl _)
    · rfl
  · rw [hnO] at hid
    rw [hnL]
    rcases Nat.lt_succ_iff_lt_or_eq.1 hid with hid | rfl
    · rw [hobj id hid] at ho
      obtain ⟨i, hi, ha, hl⟩ := h.live id hid ho
      exact ⟨i, by omega, by rw [hlis i hi]; exact ha, by rw [hlis i hi]; exact hl⟩
    · exact ⟨s.nListeners, Nat.lt_succ_self _, by rw [hnew], by rw [hnew]; simp⟩
  · have hpe : p ≠ e.listenPort := fun hpe => by rw [hpe, hnone] at hp; cases hp
    rw [hmap, if_neg hpe]
    exact ⟨hp, hobj id (h.mapped p id hp).1⟩

/-- An acceptor is closed and erased. -/
theorem closeAcceptor (h : Tracks s K) (e : ProxyEntity) :
    Tracks (s.closeAcceptor e) (fun p => K p ∧ p ≠ e.listenPort) ∧
      Kept s (s.closeAcceptor e) fun p => p ≠ e.listenPort := by
  cases hm : s.acceptors e.listenPort with
  | none =>
    have hnot : ¬ K e.listenPort := by
      intro hK
      have := (h.keys _).2 hK
      rw [hm] at this; cases this
    rw [Main.closeAcceptor, hm]
    refine ⟨h.imp fun p => ⟨fun hp => ⟨hp, ?_⟩, And.left⟩, fun p id _ hp => ⟨hp, rfl⟩⟩
    rintro rfl
    exact hnot hp
  | some id₀ =>
    have hmap : ∀ p, (s.closeAcceptor e).acceptors p =
        if p = e.listenPort then none else s.acceptors p := by
      intro p
      simp [Main.closeAcceptor, hm, Function.update_apply]
    have hobj : ∀ id ≠ id₀, (s.closeAcceptor e).objects id = s.objects id := by
      intro id hid
      simp [Main.closeAcceptor, hm, hid]
    have hclosed : ((s.closeAcceptor e).objects id₀).isOpen = false := by
      simp [Main.closeAcceptor, hm]
    have hrest : (s.closeAcceptor e).listeners = s.listeners ∧
        (s.closeAcceptor e).nListeners = s.nListeners ∧
        (s.closeAcceptor e).nObjects = s.nObjects := by
      simp [Main.closeAcceptor, hm]
    have hother : ∀ p id, p ≠ e.listenPort → s.acceptors p = some id → id ≠ id₀ := by
      rintro p id hpe hp rfl
      exact hpe (h.own p _ _ hp hm)
    obtain ⟨hl, hnL, hnO⟩ := hrest
    refine ⟨⟨fun p => ?_, fun p id hp => ?_, fun p q id hp hq => ?_, ?_, ?_,
      fun id hid ho => ?_⟩, fun p id hpe hp => ?_⟩
    · rw [hmap]
      by_cases hpe : p = e.listenPort
      · simp [hpe]
      · simp [hpe, h.keys]
    · rw [hmap] at hp
      split at hp
      · cases hp
      · rename_i hpe
        rw [hobj id (hother p id hpe hp), hnO]
        exact h.mapped p id hp
    · rw [hmap] at hp hq
      split at hp
      · cases hp
      · split at hq
        · cases hq
        · exact h.own p q id hp hq
    · rw [hl, hnL, hnO]; exact h.owned
    · rw [hl, hnL]; exact h.one
    · by_cases hid₀ : id = id₀
      · rw [hid₀, hclosed] at ho; cases ho
      · rw [hobj id hid₀] at ho
        rw [hl, hnL]
        exact h.live id (hnO ▸ hid) ho
    · rw [hmap, if_neg hpe]
      exact ⟨hp, hobj id (hother p id hpe hp)⟩

/-- What a reload keeps: an acceptor of a port that is in the new table. -/
theorem reload (h : Tracks s s.config.entities.HasPort) {c : Config}
    (hc : s.config.parseConf s.file.content = .ok c) (lastTime : ℕ) (port : UInt16) :
    Tracks (s.reload lastTime [] port) c.entities.HasPort ∧
      Kept s (s.reload lastTime [] port) c.entities.HasPort := by
  refine reload_ind (P := fun s' K => Tracks s' K ∧ Kept s s' c.entities.HasPort) hc
    ⟨h.congr rfl rfl rfl rfl rfl, fun p id _ hp => ⟨hp, rfl⟩⟩ ?_ ?_
  · rintro s' K e ⟨h', hk⟩ - hK
    obtain ⟨h₁, hk₁⟩ := h'.listener hK port
    simp only [List.not_mem_nil, not_false_eq_true, decide_true]
    exact ⟨h₁, hk.trans hk₁ fun _ _ => trivial⟩
  · rintro s' K e ⟨h', hk⟩ hnew
    obtain ⟨h₁, hk₁⟩ := h'.closeAcceptor e
    exact ⟨h₁, hk.trans hk₁ fun p hp he => hnew (he ▸ hp)⟩

end Tracks

/-! ## Runs -/

/-- Every listener comes to listen: its address is valid and its port can be bound. -/
def Main.Opens (_ : Main) : MainEvent → Prop
  | .listen opens _ => opens = true
  | .reload fails _ => fails = []
  | _ => True

instance Main.decidableOpens (s : Main) : ∀ e, Decidable (s.Opens e)
  | .listen _ _ => inferInstanceAs (Decidable (_ = _))
  | .reload _ _ => inferInstanceAs (Decidable (_ = _))
  | .write _ | .parse | .stamp | .poll | .connect _ | .resume _ | .setup _ =>
    inferInstanceAs (Decidable True)

theorem tracks_init (file : Version) : Tracks (Main.init file) (Main.init file).Listened where
  keys p := by simp [Main.init, Main.Listened, Entities.HasPort, KeyedSet.keys, KeyedSet.empty]
  mapped p id hp := by simp [Main.init] at hp
  own p q id hp := by simp [Main.init] at hp
  owned i hi := by simp [Main.init] at hi
  one i hi := by simp [Main.init] at hi
  live id hid := by simp [Main.init] at hid

/-- The map has the ports of the table whose listeners have started. -/
theorem Tracks.step {s s' : Main} (hs : Starting s) (h : Tracks s s.Listened) {e : MainEvent}
    (hO : s.Opens e) (hst : s.step e = some s') : Tracks s' s'.Listened := by
  cases e with
  | write v =>
    obtain ⟨-, rfl⟩ := of_write hst
    exact h.congr rfl rfl rfl rfl rfl
  | parse =>
    obtain ⟨hstart, c, -, rfl⟩ := of_parse hst
    rw [hs.listened_parse hstart]
    exact h.congr rfl rfl rfl rfl rfl
  | listen opens port =>
    obtain rfl : opens = true := hO
    obtain ⟨e, posted, hp, rfl⟩ := of_listen hst
    obtain ⟨hnew, heq⟩ := hs.listened_listen hp true port
    have h₀ : Tracks { s with posted } s.Listened := h.congr rfl rfl rfl rfl rfl
    rw [heq]
    exact (h₀.listener hnew port).1
  | stamp =>
    obtain ⟨-, -, -, rfl⟩ := of_stamp hst
    exact h.congr rfl rfl rfl rfl rfl
  | poll =>
    obtain ⟨lastTime, -, ⟨-, rfl⟩ | ⟨-, rfl⟩⟩ := of_poll hst
    · exact h
    · exact h.congr rfl rfl rfl rfl rfl
  | reload fails port =>
    obtain rfl : fails = [] := hO
    obtain ⟨lastTime, hp, rfl⟩ := of_reload hst
    have hnil := hs.polling (by simp [hp])
    rcases reload_cases s lastTime [] port with ⟨c, hc, hrest⟩ | ⟨c, hc, heq⟩
    · rw [Starting.listened_eq hnil] at h
      rw [Starting.listened_eq (hrest.posted.trans hnil), hrest.config]
      exact (h.reload hc lastTime port).1
    · have ht : c.entities = s.config.entities := congrArg Prod.fst (parseConf_error hc).2
      rw [heq]
      refine Tracks.congr (h.imp fun p => ?_) rfl rfl rfl rfl rfl
      simp only [Main.Listened, ht]
  | connect i =>
    obtain ⟨-, -, -, rfl⟩ := of_connect hst
    exact h.setListener i (by simp)
  | resume i =>
    obtain ⟨-, ⟨-, rfl⟩ | rfl | ⟨hclosed, rfl⟩⟩ := of_resume hst
    · have h' : Tracks (s.setListener i .accepting) s.Listened := h.setListener i (by simp)
      exact h'.congr rfl rfl rfl rfl rfl
    · exact h
    · exact h.setListener i fun _ => hclosed
  | setup k =>
    obtain ⟨-, -, rfl⟩ := of_setup hst
    exact h.congr rfl rfl rfl rfl rfl

/-! ## The acceptors follow the table -/

/-- The map has the ports of the table, and each acceptor in it is open and has
    exactly one live accept loop. -/
def Main.Tracking (s : Main) : Prop :=
  (∀ p, (s.acceptors p).isSome ↔ s.config.entities.HasPort p) ∧
    ∀ p id, s.acceptors p = some id → (s.objects id).isOpen ∧
      ∃! i, i < s.nListeners ∧ (s.listeners i).acceptor = id ∧ (s.listeners i).pc ≠ .done

theorem Tracks.tracking {s : Main} (h : Tracks s s.config.entities.HasPort) : s.Tracking := by
  refine ⟨h.keys, fun p id hp => ?_⟩
  obtain ⟨hid, ho⟩ := h.mapped p id hp
  obtain ⟨i, hi, ha, hl⟩ := h.live id hid ho
  exact ⟨ho, i, ⟨hi, ha, hl⟩, fun j ⟨hj, hja, _⟩ => h.one j hj i hi (hja.trans ha.symm)⟩

/-- What a reload has to do from `s` to `s'`: `add_` and `del_` are the ports that
    are only in the new table and only in the old one, and an acceptor whose port
    is in both stays the same object, which is not closed. -/
def Main.ReloadsTo (s s' : Main) : Prop :=
  (∀ p, s'.config.add.HasPort p ↔ s'.config.entities.HasPort p ∧ ¬ s.config.entities.HasPort p) ∧
    (∀ p, s'.config.del.HasPort p ↔
      s.config.entities.HasPort p ∧ ¬ s'.config.entities.HasPort p) ∧
    (∀ p, ¬ (s'.config.add.HasPort p ∧ s'.config.del.HasPort p)) ∧
    ∀ p, s.config.entities.HasPort p → s'.config.entities.HasPort p →
      ∃ id, s.acceptors p = some id ∧ s'.acceptors p = some id ∧
        s'.objects id = s.objects id ∧ (s'.objects id).isOpen

/-- **The acceptors track the ports** of the table, after the start and after every
    accepted reload. -/
theorem acceptors_track {file : Version} {s : Main}
    (h : Reach Main.step Main.Opens (Main.init file) s) :
    (s.posted = [] → s.Tracking) ∧
      ∀ port s', s.step (.reload [] port) = some s' →
        ∀ entities, table s.file.content = some entities →
          s'.config.entities = entities ∧ s'.Tracking ∧ s.ReloadsTo s' := by
  obtain ⟨hs, hi⟩ := h.inv (I := fun s => Starting s ∧ Tracks s s.Listened)
    ⟨Starting.init file, tracks_init file⟩
    fun _ _ _ hs hO he => ⟨hs.1.step he, hs.2.step hs.1 hO he⟩
  refine ⟨fun hp => Tracks.tracking (Starting.listened_eq hp ▸ hi), fun port s' hst entities ht => ?_⟩
  obtain ⟨lastTime, hp, rfl⟩ := of_reload hst
  rw [Starting.listened_eq (hs.polling (by rw [hp]; simp))] at hi
  rcases reload_cases s lastTime [] port with ⟨c, hc, hrest⟩ | ⟨c, hc, -⟩
  · obtain ⟨htable, hdel, hadd⟩ := parseConf_ok hc
    obtain ⟨htr, hkept⟩ := hi.reload hc lastTime port
    rw [htable] at ht
    rw [Main.ReloadsTo, hrest.config]
    refine ⟨Option.some.inj ht, Tracks.tracking (hrest.config ▸ htr), fun p => ?_, fun p => ?_,
      fun p => ?_, fun p hold hnew => ?_⟩
    · rw [hadd]; exact KeyedSet.mem_keys_difference
    · rw [hdel]; exact KeyedSet.mem_keys_difference
    · rintro ⟨ha, hd⟩
      rw [hadd] at ha
      rw [hdel] at hd
      exact (KeyedSet.mem_keys_difference.1 hd).2 (KeyedSet.mem_keys_difference.1 ha).1
    · obtain ⟨id, ha⟩ := Option.isSome_iff_exists.1 ((hi.keys p).2 hold)
      obtain ⟨ha', ho⟩ := hkept p id hnew ha
      exact ⟨id, ha, ha', ho, (htr.mapped p id ha').2⟩
  · rw [(parseConf_error hc).1] at ht
    cases ht

/-- The ports 80 and 81 are replaced by 81 and 82. -/
def Main.moved : List MainEvent :=
  [.parse, .listen true 0, .listen true 0, .stamp, .write ⟨1, fileOf oneServer [82, 81, 82]⟩, .poll]

/-- The reload starts the listener of 82 and closes the acceptor of 80. -/
theorem acceptors_track_moved : ∃ s s', Reach Main.step Main.Opens
    (Main.init ⟨0, fileOf oneServer [81, 80, 81]⟩) s ∧ s.step (.reload [] 0) = some s' ∧
      s.Tracking ∧ s'.Tracking ∧ s.ReloadsTo s' ∧
        (∀ p, s.config.entities.HasPort p ↔ p = 80 ∨ p = 81) ∧
        ∀ p, s'.config.entities.HasPort p ↔ p = 81 ∨ p = 82 := by
  obtain ⟨s, hs, hp⟩ := exists_runIf Main.step Main.Opens
    (Main.init ⟨0, fileOf oneServer [81, 80, 81]⟩) Main.moved
    (fun s => (s.step (.reload [] 0)).isSome && s.posted.isEmpty &&
      decide (s.config.entities.keys = [80, 81]) &&
      decide ((table s.file.content).map KeyedSet.keys = some [81, 82])) (by decide +kernel)
  simp only [Bool.and_eq_true, decide_eq_true_eq, Option.isSome_iff_exists, List.isEmpty_iff,
    Option.map_eq_some_iff] at hp
  obtain ⟨⟨⟨⟨s', hst⟩, hposted⟩, hold⟩, entities, ht, hnew⟩ := hp
  obtain ⟨htr, hre⟩ := acceptors_track hs
  obtain ⟨he, htr', hre'⟩ := hre 0 s' hst entities ht
  refine ⟨s, s', hs, hst, htr hposted, htr', hre', fun p => ?_, fun p => ?_⟩
  · simp [Entities.HasPort, hold, ← UInt16.toNat_inj]
  · simp [Entities.HasPort, he, hnew, ← UInt16.toNat_inj]

end CppProxy
