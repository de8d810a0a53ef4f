/-
  cpp_proxy — the numbers of the configuration (config.hpp).

  nlohmann::json converts a number to `uint16_t` by a cast, so `parse_conf`
  accepts a port of any size, keeps it modulo 65536 and cuts a fraction off;
  `entities.emplace` drops an entry whose port is there already.

  * `written`: the ports that a document gives, as numbers;
  * `Means`: every entry is in force with its own ports, and entries with
    different ports are different entities;
  * `means_iff`: an accepted document means what it says exactly when its ports
    are integers that fit 16 bits and entries of one port have the same server
    ports.
-/
import Mathlib.Algebra.Order.Ring.Rat
import CppProxy.Lib.Related
import CppProxy.Config

namespace CppProxy

/-! ## What a document says -/

/-- The number in the document, if it is one. -/
def Json.toNumber : Json → Option ℚ
  | number n => some n
  | float x => some x
  | _ => none

/-- The ports of an entry of `tcp_proxy`, where they are numbers. -/
structure Written where
  listenPort : Option ℚ
  servers : List (Option ℚ)
deriving DecidableEq, Repr

/-- The ports that an entry gives, as the document has them. -/
def writtenPorts (proxy : Json) : Written where
  listenPort := (proxy.member "listen_port").toNumber
  servers := (proxy.member "servers").items.map fun server => (server.member "port").toNumber

/-- The ports of the entries, in the order of the document. -/
def written (j : Json) : List Written := (j.member "tcp_proxy").items.map writtenPorts

/-- A number is an integer that fits 16 bits. -/
def IsPort (x : ℚ) : Prop := x.den = 1 ∧ 0 ≤ x.num ∧ x.num < 2 ^ 16

instance (x : ℚ) : Decidable (IsPort x) := inferInstanceAs (Decidable (_ ∧ _))

/-- A number is written, and it is a port. -/
def GivesPort (x : Option ℚ) : Prop := ∃ y ∈ x, IsPort y

instance : ∀ x, Decidable (GivesPort x)
  | none => .isFalse (by simp [GivesPort])
  | some x => decidable_of_iff (IsPort x) (by simp [GivesPort])

/-- Every port of the entry is given, and fits. -/
def Written.InRange (w : Written) : Prop := GivesPort w.listenPort ∧ ∀ x ∈ w.servers, GivesPort x

instance (w : Written) : Decidable w.InRange := inferInstanceAs (Decidable (_ ∧ _))

/-- Entries of one port have the same server ports. -/
def Agree (ws : List Written) : Prop :=
  ∀ w ∈ ws, ∀ w' ∈ ws, w.listenPort = w'.listenPort → w.servers = w'.servers

instance (ws : List Written) : Decidable (Agree ws) :=
  inferInstanceAs (Decidable (∀ _ ∈ _, ∀ _ ∈ _, _ → _))

/-! ## What is in force -/

/-- The entity has the ports of the entry. -/
def ProxyEntity.Says (e : ProxyEntity) (w : Written) : Prop :=
  some (e.listenPort.toNat : ℚ) = w.listenPort ∧
    e.servers.map (fun server => some (server.port.toNat : ℚ)) = w.servers

/-- Every entry is in force with the ports that it gives, and entries with
    different ports are different entities. -/
structure Means (ws : List Written) (entities : Entities) : Prop where
  inForce : ∀ w ∈ ws, ∃ e ∈ entities.elems, e.Says w
  apart : ∀ w ∈ ws, ∀ w' ∈ ws, w.listenPort ≠ w'.listenPort →
    ∃ e ∈ entities.elems, ∃ e' ∈ entities.elems, e ≠ e' ∧ e.Says w ∧ e'.Says w'

/-! ## What the casts leave -/

theorem givesPort_toNat (port : UInt16) : GivesPort (some (port.toNat : ℚ)) := by
  have hlt := port.toNat_lt
  exact ⟨_, rfl, Rat.den_natCast _, by simp, by rw [Rat.num_natCast]; omega⟩

/-- A number that is a port is the port that it is converted to. -/
def CastsTo (x : Option ℚ) (port : UInt16) : Prop := GivesPort x → some (port.toNat : ℚ) = x

theorem CastsTo.eq_iff {x : Option ℚ} {port : UInt16} (h : CastsTo x port) :
    some (port.toNat : ℚ) = x ↔ GivesPort x :=
  ⟨fun he => he ▸ givesPort_toNat port, h⟩

/-- The cast of an integer that fits 16 bits. -/
theorem toNat_ofInt {n : ℤ} (h0 : 0 ≤ n) (h : n < 2 ^ 16) :
    ((UInt16.ofInt n).toNat : ℚ) = n := by
  have hn : ((UInt16.ofInt n).toNat : ℤ) = n := by
    simp only [UInt16.ofInt, UInt16.toNat_ofNat']
    omega
  rw [← Int.cast_natCast, hn]

theorem toUInt16_castsTo {v : Json} {port : UInt16} (h : v.toUInt16 = some port) :
    CastsTo v.toNumber port := by
  rintro ⟨x, hx, hden, h0, hlt⟩
  cases v with
  | number n =>
    obtain rfl := Option.some.inj h
    obtain rfl := Option.some.inj hx
    rw [Rat.num_intCast] at h0 hlt
    exact congrArg some (toNat_ofInt h0 hlt)
  | float y =>
    obtain rfl := Option.some.inj h
    obtain rfl := Option.some.inj hx
    -- an integer has no fraction to cut off
    have htrunc : Json.truncate y = y.num := by
      rw [Json.truncate, hden, Nat.cast_one, Int.tdiv_one]
    have hy : (y.num : ℚ) = y := (Rat.den_eq_one_iff y).1 hden
    rw [htrunc, toNat_ofInt h0 hlt]
    exact congrArg some hy
  | _ => cases hx

theorem get_castsTo {j : Json} {key : String} {port : UInt16}
    (h : j.get key Json.toUInt16 = some port) : CastsTo (j.member key).toNumber port := by
  obtain ⟨v, hv, hport⟩ := Option.bind_eq_some_iff.1 h
  rw [← Json.at'_eq_some hv]
  exact toUInt16_castsTo hport

/-- The entity that `parse_conf` makes of the entry. -/
structure ProxyEntity.Casts (e : ProxyEntity) (w : Written) : Prop where
  listenPort : CastsTo w.listenPort e.listenPort
  servers : w.servers.Forall₂ (fun x server => CastsTo x server.port) e.servers

theorem ports_eq_iff {xs : List (Option ℚ)} {servers : List ServerInfo}
    (h : xs.Forall₂ (fun x server => CastsTo x server.port) servers) :
    servers.map (fun server => some (server.port.toNat : ℚ)) = xs ↔ ∀ x ∈ xs, GivesPort x := by
  induction h with
  | nil => simp
  | cons hx _ ih => rw [List.map_cons, List.cons.injEq, List.forall_mem_cons, hx.eq_iff, ih]

/-- The entity has the ports of the entry exactly when the casts keep them. -/
theorem ProxyEntity.Casts.says_iff {e : ProxyEntity} {w : Written} (h : e.Casts w) :
    e.Says w ↔ w.InRange :=
  and_congr h.listenPort.eq_iff (ports_eq_iff h.servers)

theorem parseServer_castsTo {server : Json} {info : ServerInfo}
    (h : parseServer server = some info) : CastsTo (server.member "port").toNumber info.port := by
  simp only [parseServer, Option.bind_eq_bind, Option.pure_def, Option.bind_eq_some_iff,
    Option.some.injEq] at h
  obtain ⟨_, -, port, hport, _, -, _, -, rfl⟩ := h
  exact get_castsTo hport

theorem parseProxy_casts {proxy : Json} {e : ProxyEntity} (h : parseProxy proxy = some e) :
    e.Casts (writtenPorts proxy) := by
  simp only [parseProxy, Option.bind_eq_bind, Option.pure_def, Option.bind_eq_some_iff,
    Option.some.injEq] at h
  obtain ⟨v, hv, servers, hservers, _, -, port, hport, rfl⟩ := h
  refine ⟨get_castsTo hport, ?_⟩
  rw [writtenPorts, ← Json.at'_eq_some hv, List.forall₂_map_left_iff]
  exact (List.forall₂_mapM hservers).imp fun _ _ => parseServer_castsTo

/-- The entities of an accepted document: each is that of an entry, and each entry
    has one of its port. -/
structure Cast (ws : List Written) (entities : Entities) : Prop where
  casts : ∀ e ∈ entities.elems, ∃ w ∈ ws, e.Casts w
  port : ∀ w ∈ ws, ∃ e ∈ entities.elems, CastsTo w.listenPort e.listenPort

theorem parseEntities_cast {j : Json} {entities : Entities} (h : parseEntities j = some entities) :
    Cast (written j) entities := by
  simp only [parseEntities, Option.bind_eq_bind, Option.pure_def, Option.bind_eq_some_iff,
    Option.some.injEq] at h
  obtain ⟨v, hv, es, hes, rfl⟩ := h
  have hcasts : (written j).Forall₂ (fun w e => e.Casts w) es := by
    rw [written, ← Json.at'_eq_some hv, List.forall₂_map_left_iff]
    exact (List.forall₂_mapM hes).imp fun _ _ => parseProxy_casts
  refine ⟨fun e he => ?_, fun w hw => ?_⟩
  · rcases KeyedSet.mem_foldl_emplace he with he | he
    · simp [KeyedSet.empty] at he
    · exact hcasts.exists_right he
  · obtain ⟨e, he, hew⟩ := hcasts.exists_left hw
    have hport : Entities.HasPort (es.foldl KeyedSet.emplace KeyedSet.empty) e.listenPort :=
      KeyedSet.mem_keys_foldl_emplace.2 (.inr ⟨e, he, rfl⟩)
    obtain ⟨e', he', hport'⟩ := Entities.hasPort_iff.1 hport
    exact ⟨e', he', hport' ▸ hew.listenPort⟩

/-! ## When a document means what it says -/

theorem Cast.means {ws : List Written} {entities : Entities} (h : Cast ws entities)
    (hr : ∀ w ∈ ws, w.InRange) (ha : Agree ws) : Means ws entities := by
  have hforce : ∀ w ∈ ws, ∃ e ∈ entities.elems, e.Says w := by
    intro w hw
    obtain ⟨e, he, hport⟩ := h.port w hw
    obtain ⟨w', hw', hcasts⟩ := h.casts e he
    obtain ⟨hlisten, hservers⟩ := hcasts.says_iff.2 (hr w' hw')
    -- the entity may be that of another entry of the port
    have hsame : w'.listenPort = w.listenPort := hlisten.symm.trans (hport (hr w hw).1)
    exact ⟨e, he, hlisten.trans hsame, hservers.trans (ha w' hw' w hw hsame)⟩
  refine ⟨hforce, fun w hw w' hw' hne => ?_⟩
  obtain ⟨e, he, hsaid⟩ := hforce w hw
  obtain ⟨e', he', hsaid'⟩ := hforce w' hw'
  refine ⟨e, he, e', he', ?_, hsaid, hsaid'⟩
  rintro rfl
  exact hne (hsaid.1.symm.trans hsaid'.1)

theorem Means.inRange {ws : List Written} {entities : Entities} (h : Means ws entities) :
    ∀ w ∈ ws, w.InRange := by
  intro w hw
  obtain ⟨e, -, hlisten, hservers⟩ := h.inForce w hw
  refine ⟨hlisten ▸ givesPort_toNat _, fun x hx => ?_⟩
  rw [← hservers, List.mem_map] at hx
  obtain ⟨server, -, rfl⟩ := hx
  exact givesPort_toNat _

theorem Means.agree {ws : List Written} {entities : Entities} (h : Means ws entities) :
    Agree ws := by
  intro w hw w' hw' heq
  obtain ⟨e, he, hlisten, hservers⟩ := h.inForce w hw
  obtain ⟨e', he', hlisten', hservers'⟩ := h.inForce w' hw'
  have hkey : e.key = e'.key := by
    have hports := hlisten.trans (heq.trans hlisten'.symm)
    exact Nat.cast_injective (Option.some.inj hports)
  obtain rfl := KeyedSet.eq_of_key he he' hkey
  exact hservers.symm.trans hservers'

/-- **An accepted document means what it says** exactly when its ports are integers
    that fit 16 bits and entries of one port have the same server ports. -/
theorem means_iff {c c' : Config} {j : Json} (h : c.parseConf (some j) = .ok c') :
    Means (written j) c'.entities ↔ (∀ w ∈ written j, w.InRange) ∧ Agree (written j) :=
  ⟨fun hm => ⟨hm.inRange, hm.agree⟩, fun hc =>
    (parseEntities_cast (parseConf_entities h)).means hc.1 hc.2⟩

/-- The ports 80 and 81, with the server port 80. -/
theorem means_two : ∃ j, ∃ c' : Config, Config.parseConf {} (some j) = .ok c' ∧
    written j = [⟨some 80, [some 80]⟩, ⟨some 81, [some 80]⟩] ∧ Means (written j) c'.entities := by
  obtain ⟨j, hj⟩ : ∃ j, fileOf oneServer [80, 81] = some j := ⟨_, rfl⟩
  obtain ⟨c', hc'⟩ : ∃ c', Config.parseConf {} (some j) = .ok c' := by
    cases hj; exact ⟨_, rfl⟩
  have hw : written j = [⟨some 80, [some 80]⟩, ⟨some 81, [some 80]⟩] := by
    cases hj; rfl
  exact ⟨j, c', hc', hw, (means_iff hc').2 (by rw [hw]; decide)⟩

/-- The ports 80 and 65616 are accepted, and are one entity: the second entry is
    not in force. -/
theorem not_means : ¬ ∀ (c c' : Config) (j : Json), c.parseConf (some j) = .ok c' →
    Means (written j) c'.entities := by
  intro h
  obtain ⟨j, hj⟩ : ∃ j, fileOf oneServer [80, 65616] = some j := ⟨_, rfl⟩
  obtain ⟨c', hc'⟩ : ∃ c', Config.parseConf {} (some j) = .ok c' := by
    cases hj; exact ⟨_, rfl⟩
  have hw : written j = [⟨some 80, [some 80]⟩, ⟨some 65616, [some 80]⟩] := by
    cases hj; rfl
  have hr := (h {} c' j hc').inRange ⟨some 65616, [some 80]⟩ (by simp [hw])
  exact absurd hr.1 (by decide)

end CppProxy
