/-
  cpp_proxy — the addresses of the acceptors (config.hpp, cpp_proxy.cpp).

  `proxy_entity::operator<` compares the ports, so the differences that a reload
  acts on leave out an entry whose port stays and whose `listen_ip` changes: its
  acceptor goes on at the old address.

  * `addressOf`: the address that a `listen_ip` stands for;
  * `Main.Honours`: the open acceptors are those of the table, each on the port
    and the address that the table gives;
  * `Main.KeepsAddresses`: no port that stays in the table changes its address;
  * `honours_iff`: under this condition every state honours its table, and the
    first reload that breaks it does not.
-/
import CppProxy.Acceptors

namespace CppProxy

open Runs

section

/- `asio::ip::address::from_string`, and the address of `tcp::v6()`. -/
variable {Addr : Type} (fromString : String → Addr) (v6 : Addr)

/-- The address that `listener` binds to. -/
def addressOf (listenIp : String) : Addr := if listenIp = "" then v6 else fromString listenIp

/-- A port of both tables has one address. -/
def Entities.KeepsAddresses (old new : Entities) : Prop :=
  ∀ e ∈ old.elems, ∀ e' ∈ new.elems, e.listenPort = e'.listenPort →
    addressOf fromString v6 e.listenIp = addressOf fromString v6 e'.listenIp

instance Entities.decidableKeepsAddresses [DecidableEq Addr] (old new : Entities) :
    Decidable (old.KeepsAddresses fromString v6 new) :=
  inferInstanceAs (Decidable (∀ _ ∈ _, ∀ _ ∈ _, _ → _))

/-- Every listener comes to listen, and an accepted file gives a port that stays
    the address that it had. -/
def Main.KeepsAddresses (s : Main) (event : MainEvent) : Prop :=
  s.Opens event ∧ match event with
    | .reload _ _ => ∀ entities ∈ table s.file.content,
      s.config.entities.KeepsAddresses fromString v6 entities
    | _ => True

instance Main.decidableKeepsAddresses [DecidableEq Addr] (s : Main) :
    ∀ event, Decidable (s.KeepsAddresses fromString v6 event)
  | .reload _ _ => inferInstanceAs (Decidable (_ ∧ ∀ _ ∈ _, _))
  | .write _ | .parse | .listen _ _ | .stamp | .poll | .connect _ | .resume _ | .setup _ =>
    inferInstanceAs (Decidable (_ ∧ True))

/-- The open acceptors are those of the entities in force: each is bound to the
    port and the address of its entity, and has a live accept loop. -/
def Main.Honours (s : Main) : Prop :=
  (∀ e ∈ s.config.entities.elems, ∃ id, s.acceptors e.listenPort = some id ∧
    (s.objects id).isOpen ∧ (e.listenPort ≠ 0 → (s.objects id).port = e.listenPort) ∧
    addressOf fromString v6 (s.objects id).listenIp = addressOf fromString v6 e.listenIp ∧
    ∃ i < s.nListeners, (s.listeners i).acceptor = id ∧ (s.listeners i).pc ≠ .done) ∧
  ∀ id < s.nObjects, (s.objects id).isOpen →
    ∃ e ∈ s.config.entities.elems, s.acceptors e.listenPort = some id

end

/-! ## The acceptors of the map -/

/-- Every acceptor in the map is as `A` says for its port, and every open acceptor
    is in the map. -/
structure Mapped (s : Main) (A : UInt16 → Acceptor → Prop) : Prop where
  each : ∀ p id, s.acceptors p = some id → A p (s.objects id)
  all : ∀ id < s.nObjects, (s.objects id).isOpen → ∃ p, s.acceptors p = some id

namespace Mapped

variable {s s' : Main} {K : UInt16 → Prop} {A B : UInt16 → Acceptor → Prop}

theorem congr (h : Mapped s A) (ha : s'.acceptors = s.acceptors) (ho : s'.objects = s.objects)
    (hn : s'.nObjects = s.nObjects) : Mapped s' A where
  each := by rw [ha, ho]; exact h.each
  all := by rw [ha, ho, hn]; exact h.all

theorem imp (h : Mapped s A) (hAB : ∀ p id, s.acceptors p = some id → A p (s.objects id) →
    B p (s.objects id)) : Mapped s B :=
  ⟨fun p id hp => hAB p id hp (h.each p id hp), h.all⟩

/-- The acceptor of a port that was there before. -/
theorem of_kept {P : UInt16 → Prop} (hk : Kept s s' P) (ht : Tracks s K) {p : UInt16} {id : ℕ}
    (hp : P p) (hK : K p) (h : s'.acceptors p = some id) :
    s.acceptors p = some id ∧ s'.objects id = s.objects id := by
  obtain ⟨id₀, h₀⟩ := Option.isSome_iff_exists.1 ((ht.keys p).2 hK)
  obtain ⟨h₁, ho⟩ := hk p id₀ hp h₀
  obtain rfl := Option.some.inj (h₁.symm.trans h)
  exact ⟨h₀, ho⟩

/-- A listener starts on a port that is not in the map. -/
theorem listener (h : Mapped s A) (ht : Tracks s K) {e : ProxyEntity} (hK : ¬ K e.listenPort)
    {port : UInt16}
    (hA : ∀ a : Acceptor, a.listenIp = e.listenIp →
      (e.listenPort ≠ 0 → a.port = e.listenPort) → A e.listenPort a) :
    Mapped (s.listener e true port) A := by
  have hnone : s.acceptors e.listenPort = none :=
    Option.not_isSome_iff_eq_none.1 fun hs => hK ((ht.keys _).1 hs)
  have hnew : (s.listener e true port).acceptors e.listenPort = some s.nObjects := by
    simp [Main.listener, hnone]
  obtain ⟨ht', hk⟩ := ht.listener hK port
  constructor
  · intro p id hp
    rcases (ht'.keys p).1 (Option.isSome_iff_exists.2 ⟨id, hp⟩) with rfl | hKp
    · obtain rfl := Option.some.inj (hnew.symm.trans hp)
      refine hA _ ?_ fun h₀ => ?_
      · simp [Main.listener]
      · simp [Main.listener, h₀]
    · obtain ⟨hp₀, ho⟩ := of_kept hk ht trivial hKp hp
      rw [ho]
      exact h.each p id hp₀
  · intro id hid ho
    have hn : (s.listener e true port).nObjects = s.nObjects + 1 := by simp [Main.listener]
    rw [hn] at hid
    rcases Nat.lt_succ_iff_lt_or_eq.1 hid with hid | rfl
    · have hobj : (s.listener e true port).objects id = s.objects id := by
        simp [Main.listener, Nat.ne_of_lt hid]
      rw [hobj] at ho
      obtain ⟨p, hp⟩ := h.all id hid ho
      exact ⟨p, (hk p id trivial hp).1⟩
    · exact ⟨e.listenPort, hnew⟩

/-- An acceptor is closed and erased. -/
theorem closeAcceptor (h : Mapped s A) (ht : Tracks s K) (e : ProxyEntity) :
    Mapped (s.closeAcceptor e) A := by
  obtain ⟨ht', hk⟩ := ht.closeAcceptor e
  constructor
  · intro p id hp
    obtain ⟨hK, hne⟩ := (ht'.keys p).1 (Option.isSome_iff_exists.2 ⟨id, hp⟩)
    obtain ⟨hp₀, ho⟩ := of_kept hk ht hne hK hp
    rw [ho]
    exact h.each p id hp₀
  · intro id hid ho
    cases hm : s.acceptors e.listenPort with
    | none =>
      rw [Main.closeAcceptor, hm] at hid ho ⊢
      exact h.all id hid ho
    | some id₀ =>
      have hne : id ≠ id₀ := by
        rintro rfl
        simp [Main.closeAcceptor, hm] at ho
      have ho₀ : (s.objects id).isOpen := by simpa [Main.closeAcceptor, hm, hne] using ho
      have hid₀ : id < s.nObjects := by simpa [Main.closeAcceptor, hm] using hid
      obtain ⟨p, hp⟩ := h.all id hid₀ ho₀
      have hpe : p ≠ e.listenPort := by
        rintro rfl
        exact hne (Option.some.inj (hp.symm.trans hm))
      exact ⟨p, (hk p id hpe hp).1⟩

end Mapped

/-! ## The addresses of the table -/

section

variable {Addr : Type} {fromString : String → Addr} {v6 : Addr}

/-- The acceptor of the port `p` is bound to it, at the address of the table. -/
def Entities.Binds (fromString : String → Addr) (v6 : Addr) (entities : Entities) (p : UInt16)
    (a : Acceptor) : Prop :=
  (p ≠ 0 → a.port = p) ∧ ∀ e ∈ entities.elems, e.listenPort = p →
    addressOf fromString v6 a.listenIp = addressOf fromString v6 e.listenIp

/-- The acceptor of a new listener. -/
theorem Entities.binds_listener {entities : Entities} {e : ProxyEntity} (he : e ∈ entities.elems)
    {a : Acceptor} (hip : a.listenIp = e.listenIp) (hport : e.listenPort ≠ 0 → a.port = e.listenPort) :
    entities.Binds fromString v6 e.listenPort a := by
  refine ⟨hport, fun e' he' hp => ?_⟩
  obtain rfl := KeyedSet.eq_of_key he' he (by simp [ProxyEntity.key, hp])
  rw [hip]

/-- What every run keeps. -/
structure Bound (fromString : String → Addr) (v6 : Addr) (s : Main) : Prop where
  starting : Starting s
  tracks : Tracks s s.Listened
  mapped : Mapped s (s.config.entities.Binds fromString v6)

variable {s s' : Main}

theorem bound_init (file : Version) : Bound fromString v6 (Main.init file) where
  starting := .init file
  tracks := tracks_init file
  mapped := ⟨fun p id hp => by simp [Main.init] at hp, fun id hid => by simp [Main.init] at hid⟩

/-- **An accepted reload** that keeps the addresses. -/
theorem Bound.reload (h : Bound fromString v6 s) (hnil : s.posted = []) {c : Config}
    (hc : s.config.parseConf s.file.content = .ok c)
    (hkeeps : s.config.entities.KeepsAddresses fromString v6 c.entities) (lastTime : ℕ)
    (port : UInt16) :
    Mapped (s.reload lastTime [] port) (c.entities.Binds fromString v6) := by
  have ht := h.tracks
  rw [Starting.listened_eq hnil] at ht
  have hm : Mapped s (c.entities.Binds fromString v6) := by
    refine h.mapped.imp fun p id hp hb => ⟨hb.1, fun e' he' hpe => ?_⟩
    obtain ⟨e, he, rfl⟩ := Entities.hasPort_iff.1 ((ht.keys p).1 (by simp [hp]))
    exact (hb.2 e he rfl).trans (hkeeps e he e' he' hpe.symm)
  refine (reload_ind (P := fun s' K => Tracks s' K ∧ Mapped s' (c.entities.Binds fromString v6)) hc
    ⟨ht.congr rfl rfl rfl rfl rfl, hm.congr rfl rfl rfl⟩ ?_ ?_).2
  · rintro s' K e ⟨ht', hm'⟩ he hK
    simp only [List.not_mem_nil, not_false_eq_true, decide_true]
    exact ⟨(ht'.listener hK port).1,
      hm'.listener ht' hK fun a hip hport => Entities.binds_listener he hip hport⟩
  · rintro s' K e ⟨ht', hm'⟩ -
    exact ⟨(ht'.closeAcceptor e).1, hm'.closeAcceptor ht' e⟩

theorem Bound.step (h : Bound fromString v6 s) {e : MainEvent}
    (hC : s.KeepsAddresses fromString v6 e) (hst : s.step e = some s') :
    Bound fromString v6 s' := by
  refine ⟨h.starting.step hst, h.tracks.step h.starting hC.1 hst, ?_⟩
  obtain ⟨hO, hC⟩ := hC
  cases e with
  | write v =>
    obtain ⟨-, rfl⟩ := of_write hst
    exact h.mapped.congr rfl rfl rfl
  | parse =>
    obtain ⟨hstart, c, -, rfl⟩ := of_parse hst
    -- no listener has started
    have hnone : ∀ p id, s.acceptors p ≠ some id := by
      intro p id hp
      have hl := (h.tracks.keys p).1 (by simp [hp])
      have hempty := (h.starting.unstarted hstart).2.2.1
      simp [Main.Listened, hempty, Entities.HasPort, KeyedSet.keys, KeyedSet.empty] at hl
    exact (h.mapped.imp fun p id hp _ => absurd hp (hnone p id)).congr rfl rfl rfl
  | listen opens port =>
    obtain rfl : opens = true := hO
    obtain ⟨e, posted, hp, rfl⟩ := of_listen hst
    have hnew := (h.starting.listened_listen hp true port).1
    have he : e ∈ s.config.entities.elems := h.starting.posted e (by simp [hp])
    have ht₀ : Tracks { s with posted } s.Listened := h.tracks.congr rfl rfl rfl rfl rfl
    have hm₀ : Mapped { s with posted } (s.config.entities.Binds fromString v6) :=
      h.mapped.congr rfl rfl rfl
    rw [(SameRest.listener { s with posted } e true port).config]
    exact hm₀.listener ht₀ hnew fun a hip hport => Entities.binds_listener he hip hport
  | stamp =>
    obtain ⟨-, -, -, rfl⟩ := of_stamp hst
    exact h.mapped.congr rfl rfl rfl
  | poll =>
    obtain ⟨lastTime, -, ⟨-, rfl⟩ | ⟨-, rfl⟩⟩ := of_poll hst
    · exact h.mapped
    · exact h.mapped.congr rfl rfl rfl
  | reload fails port =>
    obtain rfl : fails = [] := hO
    obtain ⟨lastTime, hp, rfl⟩ := of_reload hst
    have hnil := h.starting.polling (by simp [hp])
    rcases reload_cases s lastTime [] port with ⟨c, hc, hrest⟩ | ⟨c, hc, heq⟩
    · rw [hrest.config]
      exact h.reload hnil hc (hC _ (parseConf_ok hc).1) lastTime port
    · have ht : c.entities = s.config.entities := congrArg Prod.fst (parseConf_error hc).2
      rw [heq]
      simp only [ht]
      exact h.mapped.congr rfl rfl rfl
  | connect i =>
    obtain ⟨-, -, -, rfl⟩ := of_connect hst
    exact h.mapped.congr rfl rfl rfl
  | resume i =>
    obtain ⟨-, ⟨-, rfl⟩ | rfl | ⟨-, rfl⟩⟩ := of_resume hst
    · exact h.mapped.congr rfl rfl rfl
    · exact h.mapped
    · exact h.mapped.congr rfl rfl rfl
  | setup k =>
    obtain ⟨-, -, rfl⟩ := of_setup hst
    exact h.mapped.congr rfl rfl rfl

/-- The open acceptors are those of the table, once its listeners have started. -/
theorem honours_of_mapped (ht : Tracks s s.config.entities.HasPort)
    (hm : Mapped s (s.config.entities.Binds fromString v6)) : s.Honours fromString v6 := by
  constructor
  · intro e he
    obtain ⟨id, hp⟩ := Option.isSome_iff_exists.1
      ((ht.keys e.listenPort).2 (Entities.hasPort_iff.2 ⟨e, he, rfl⟩))
    obtain ⟨hport, haddr⟩ := hm.each _ _ hp
    obtain ⟨hid, ho⟩ := ht.mapped _ _ hp
    exact ⟨id, hp, ho, hport, haddr e he rfl, ht.live id hid ho⟩
  · intro id hid ho
    obtain ⟨p, hp⟩ := hm.all id hid ho
    obtain ⟨e, he, rfl⟩ := Entities.hasPort_iff.1 ((ht.keys p).1 (by simp [hp]))
    exact ⟨e, he, hp⟩

/-- **A changed address takes effect** only if its port leaves the table first:
    while the reloads keep the addresses every state honours its table, and the
    next accepted reload honours its own exactly when it keeps them too. -/
theorem honours_iff {file : Version}
    (h : Reach Main.step (Main.KeepsAddresses fromString v6) (Main.init file) s) :
    (s.posted = [] → s.Honours fromString v6) ∧
      ∀ port s', s.step (.reload [] port) = some s' →
        ∀ entities, table s.file.content = some entities →
          s'.config.entities = entities ∧
            (s'.Honours fromString v6 ↔
              s.config.entities.KeepsAddresses fromString v6 entities) := by
  have hb : Bound fromString v6 s := h.inv (bound_init file) fun _ _ _ hb hC hst => hb.step hC hst
  constructor
  · intro hp
    exact honours_of_mapped (Starting.listened_eq hp ▸ hb.tracks) hb.mapped
  · intro port s' hst entities ht
    obtain ⟨lastTime, hp, rfl⟩ := of_reload hst
    have hnil := hb.starting.polling (by rw [hp]; simp)
    have htr := hb.tracks
    rw [Starting.listened_eq hnil] at htr
    rcases reload_cases s lastTime [] port with ⟨c, hc, hrest⟩ | ⟨c, hc, -⟩
    · obtain rfl := Option.some.inj ((parseConf_ok hc).1.symm.trans ht)
      obtain ⟨htr', hkept⟩ := htr.reload hc lastTime port
      refine ⟨congrArg Config.entities hrest.config, fun hh e he e' he' hpe => ?_, fun hkeeps => ?_⟩
      · -- the acceptor of the port is the one of before
        obtain ⟨id, hid⟩ := Option.isSome_iff_exists.1
          ((htr.keys e.listenPort).2 (Entities.hasPort_iff.2 ⟨e, he, rfl⟩))
        obtain ⟨hid', ho⟩ := hkept _ id (Entities.hasPort_iff.2 ⟨e', he', hpe.symm⟩) hid
        rw [Main.Honours, hrest.config] at hh
        obtain ⟨id', hid'', -, -, haddr, -⟩ := hh.1 e' he'
        rw [← hpe, hid'] at hid''
        obtain rfl := Option.some.inj hid''
        rw [ho] at haddr
        exact ((hb.mapped.each _ _ hid).2 e he rfl).symm.trans haddr
      · have hm := hb.reload hnil hc hkeeps lastTime port
        exact honours_of_mapped (by rw [hrest.config]; exact htr') (by rw [hrest.config]; exact hm)
    · rw [(parseConf_error hc).1] at ht
      cases ht

end

/-- A file that gives each of the ports with its address. -/
def fileAt (entries : List (String × ℤ)) : Option Json :=
  some (.object [("tcp_proxy", .array (entries.map fun (ip, port) =>
    .object [("listen_ip", .string ip), ("listen_port", .number port),
      ("servers", .array oneServer)]))])

/-- The listeners of a file start, and it is replaced by another. -/
def Main.replaced (entries : List (String × ℤ)) : List MainEvent :=
  [.parse, .listen true 0, .stamp, .write ⟨1, fileAt entries⟩, .poll]

/-- The port 81 is added at another address; the port 80 stays at its own. -/
theorem honours_added : ∃ s s', Reach Main.step (Main.KeepsAddresses id "::")
    (Main.init ⟨0, fileAt [("127.0.0.1", 80)]⟩) s ∧ s.step (.reload [] 0) = some s' ∧
      s.Honours id "::" ∧ s'.Honours id "::" := by
  obtain ⟨s, hs, hp⟩ := exists_runIf Main.step (Main.KeepsAddresses id "::")
    (Main.init ⟨0, fileAt [("127.0.0.1", 80)]⟩)
    (Main.replaced [("127.0.0.1", 80), ("127.0.0.2", 81)])
    (fun s => (s.step (.reload [] 0)).isSome && s.posted.isEmpty &&
      (table s.file.content).any fun entities =>
        decide (s.config.entities.KeepsAddresses id "::" entities)) (by decide +kernel)
  simp only [Bool.and_eq_true, Option.isSome_iff_exists, List.isEmpty_iff, Option.any_eq_true,
    decide_eq_true_eq] at hp
  obtain ⟨⟨⟨s', hst⟩, hposted⟩, entities, ht, hkeeps⟩ := hp
  obtain ⟨hh, hre⟩ := honours_iff hs
  exact ⟨s, s', hs, hst, hh hposted, (hre 0 s' hst entities ht).2.2 hkeeps⟩

/-- The port 80 is moved from 127.0.0.1 to 127.0.0.2: after the reload it is still
    accepted at 127.0.0.1. -/
theorem not_honours : ∃ s, Reach Main.step Main.Opens
    (Main.init ⟨0, fileAt [("127.0.0.1", 80)]⟩) s ∧ s.posted = [] ∧
      ¬ s.Honours id "::" := by
  obtain ⟨s, hs, hp⟩ := exists_runIf Main.step Main.Opens
    (Main.init ⟨0, fileAt [("127.0.0.1", 80)]⟩)
    (Main.replaced [("127.0.0.2", 80)] ++ [.reload [] 0])
    (fun s => s.posted.isEmpty &&
      decide (s.config.entities.elems.map ProxyEntity.listenIp = ["127.0.0.2"]) &&
      decide (s.config.entities.keys = [80]) &&
      decide ((s.acceptors 80).map (fun id => (s.objects id).listenIp) = some "127.0.0.1"))
    (by decide +kernel)
  simp only [Bool.and_eq_true, decide_eq_true_eq, List.isEmpty_iff] at hp
  obtain ⟨⟨⟨hposted, hip⟩, hkeys⟩, hacc⟩ := hp
  refine ⟨s, hs, hposted, fun hh => ?_⟩
  obtain ⟨e, helems, hep⟩ := List.map_eq_singleton_iff.1 hip
  rw [KeyedSet.keys, helems, List.map_singleton, List.singleton_inj] at hkeys
  have hport : e.listenPort = 80 := UInt16.toNat_inj.1 hkeys
  obtain ⟨id, hid, -, -, haddr, -⟩ := hh.1 e (by simp [helems])
  rw [← hport, hid, Option.map_some, Option.some.injEq] at hacc
  rw [hacc, hep] at haddr
  exact absurd haddr (by decide)

end CppProxy
