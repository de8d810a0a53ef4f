/-
  cpp_proxy — progress of the relays (session.hpp, config.hpp).

  An iteration of `client_request` or `server_response` goes through one
  `async_read_some`.  For the process it reads into a block, which has 64 bytes
  left at least; on the direct path it reads into a buffer of `conn_buf_size`
  bytes, and `parse_conf` accepts 0.

  * `Progresses`: every read that does not end the relay takes a byte from the
    peer, and a run has no more iterations than bytes, but for one;
  * `Roomy`: the buffers that are read into have room, after every step;
  * `progresses_iff`: the sessions of a configuration progress exactly when the
    servers that are looked up have buffers.
-/
import CppProxy.Closing
import CppProxy.Config

namespace CppProxy

open Session Runs

/-! ## Iterations -/

/-- The read of an iteration of the relay of a direction completes. -/
def Event.Reads (d : Dir) : Event → Prop
  | .read d' _ => d' = d
  | _ => False

instance (d : Dir) : ∀ e : Event, Decidable (e.Reads d)
  | .read _ _ => inferInstanceAs (Decidable (_ = _))
  | .push _ _ | .pull _ _ | .issue _ | .complete _ | .fail _ | .connect _ | .expire _
  | .respond _ _ => inferInstanceAs (Decidable False)

/-- The iterations of the relay of a direction. -/
def iterations (d : Dir) (es : List Event) : ℕ := es.countP fun e => decide (e.Reads d)

/-- The relays of a session make progress. -/
structure Progresses (c : Conf) : Prop where
  /-- a read ends the relay, or is the end of the stream, or takes a byte -/
  consumes : ∀ s, Reach Session.step (fun _ _ => True) (Session.init c) s →
    ∀ d r s', s.step (.read d r) = some s' →
      (s'.way d).relay = .done ∨ r = .eof ∨
        (s.way d).received.length < (s'.way d).received.length
  /-- there are no more iterations than bytes, and one that ends the relay -/
  finite : ∀ s, Reach Session.step (fun _ _ => True) (Session.init c) s →
    ∀ es s', run Session.step s es = some s' → ∀ d,
      (s.way d).received.length + iterations d es ≤ (s'.way d).received.length + 1
  /-- a closed session has five iterations at most -/
  closed : ∀ s, Reach Session.step (fun _ _ => True) (Session.init c) s → s.hasClosed = true →
    ∀ es s', run Session.step s es = some s' → ∀ d, iterations d es ≤ 5

/-! ## The buffers -/

/-- A read for the process has a block with 69 bytes left. -/
def Way.Fits (w : Way) : Prop :=
  ∀ live, w.relay = .readProcess live → ∃ b, w.block = some b ∧ 69 ≤ b.getAvailable

theorem Way.fits_of {w : Way} (h : ∀ live, w.relay ≠ .readProcess live) : w.Fits :=
  fun live hr => absurd hr (h live)

/-- The direct buffers have the size `n`, and the blocks that are read into have room. -/
structure Roomy (n : ℕ) (s : Session) : Prop where
  size : s.connBufSize = n
  fits : ∀ d, (s.way d).Fits

namespace Roomy

variable {s s' : Session} {n : ℕ}

/-- A relay moves on: to a read for the process with a block that has room. -/
theorem fits_setWay (h : ∀ d, (s.way d).Fits) {d : Dir} {w : Way} (hf : w.Fits) (d' : Dir) :
    ((s.setWay d w).way d').Fits := by
  by_cases hd : d' = d
  · subst hd; simpa using hf
  · simpa [hd] using h d'

/-- A block that has less than 69 bytes left is replaced. -/
theorem fits_edit {t : Tid} (h : ∀ d, (s.way d).Fits) (he : Edit s t s') (d : Dir) :
    (s'.way d).Fits := by
  cases he with
  | @issueWrite t =>
    cases t with
    | relay d₁ =>
      refine fits_setWay h ?_ d
      intro live hl
      refine h d₁ live ?_
      change (s.way d₁).relay.setLinkWrite _ = _ at hl
      cases hpc : (s.way d₁).relay <;> rw [hpc] at hl <;> first | exact hl | cases hl
    | _ => exact h d
  | relayDone | relayDirect | notified | notify =>
    exact fits_setWay h (Way.fits_of fun _ hl => by cases hl) d
  | @relayFlush d₁ =>
    exact fits_setWay (s := s.emit (.flush d₁ _ _)) h (Way.fits_of fun _ hl => by cases hl) d
  | readProcess =>
    refine fits_setWay h (fun live _ => ⟨_, rfl, ?_⟩) d
    split
    · split
      · decide
      · rename_i hb
        exact UInt32.not_lt.1 hb
    · decide
  | _ => exact h d

/-- **A step** keeps the buffers. -/
theorem step (h : Roomy n s) {e : Event} (hr : Rule s e s') : Roomy n s' := by
  refine ⟨(congrArg Prod.fst (frame_of_rule hr).settings :).trans h.size, ?_⟩
  have hedits : ∀ {t x y}, (∀ d, (Session.way x d).Fits) → Edits t x y → ∀ d, (y.way d).Fits :=
    fun hx hy => hy.inv (P := fun y => ∀ d, (y.way d).Fits) (fun _ _ hx he => fits_edit hx he) hx
  cases updated_of_rule hr with
  | code _ _ he => exact hedits h.fits he
  | readEof he => exact hedits (x := { s with eof := true, trace := _ }) h.fits he
  | overrun _ _ he => exact hedits (x := { s with undefined := true }) h.fits he
  | @flushed d t w _ _ _ he =>
    exact hedits (x := s.clearFlushed d w)
      (fits_setWay (s := s.emit (.flushed d _ _)) (d := d) h.fits (h.fits d)) he
  | @cleared i d _ _ _ stored _ _ _ he =>
    exact hedits (x := s.setStored d stored) (fits_setWay (d := d) h.fits (h.fits d)) he
  | @gotDirect d =>
    rw [writeDirect_eq]
    exact fits_setWay (s := s) (d := d) h.fits (Way.fits_of fun _ hl => by cases hl)
  | @gotProcess d =>
    rw [writeProcess_eq]
    exact fits_setWay (s := s) (d := d) h.fits (Way.fits_of fun _ hl => by cases hl)
  | @pushPeer t k d w =>
    have hacc : ∀ d', ((s.accept d (w.rest.take k)).way d').Fits :=
      fits_setWay (d := d) h.fits (h.fits d)
    cases t with
    | relay d₁ =>
      refine fits_setWay hacc ?_
      intro live hl
      refine hacc d₁ live ?_
      change ((s.accept d (w.rest.take k)).way d₁).relay.setPeerWrite _ = _ at hl
      cases hpc : ((s.accept d (w.rest.take k)).way d₁).relay <;> rw [hpc] at hl <;>
        first | exact hl | cases hl
    | _ => exact hacc
  | @pushLink t k w =>
    cases t with
    | relay d₁ =>
      refine fits_setWay (s := s.sendLink w k) h.fits ?_
      intro live hl
      refine h.fits d₁ live ?_
      change (s.way d₁).relay.setLinkWrite _ = _ at hl
      cases hpc : (s.way d₁).relay <;> rw [hpc] at hl <;> first | exact hl | cases hl
    | _ => exact h.fits
  | @release i d conn head s₁ _ h₁ _ he =>
    obtain ⟨-, rfl⟩ := he
    have hway : s₁.way = s.way := by rcases h₁ with rfl | rfl <;> rfl
    exact fits_setWay (s := s₁) (d := d) (hway ▸ h.fits) (hway ▸ h.fits d)
  | pull | connected | connect | respond => exact h.fits

/-- The buffers of a new session. -/
theorem init (c : Conf) : Roomy c.connBufSize (Session.init c) :=
  ⟨rfl, fun d => Way.fits_of (by cases d <;> exact fun _ hl => by cases hl)⟩

end Roomy

/-! ## The measure -/

/-- The bytes received in a direction, and one more once the relay has ended. -/
def Session.progress (s : Session) (d : Dir) : ℕ :=
  (s.way d).received.length + if (s.way d).relay = .done then 1 else 0

/-- A relay that has returned is not resumed. -/
theorem relay_awaits {s s' : Session} {e : Event} (hr : Rule s e s') {d : Dir}
    (he : e.tid = some (.relay d)) : (s.way d).relay ≠ .done := by
  intro hd
  cases hr <;> simp only [Event.tid, Option.some.injEq, Tid.relay.injEq, reduceCtorEq] at he <;>
    subst he <;> simp_all [peerWrite, linkWrite, RelayPc.peerWrite, RelayPc.linkWrite]

section

variable {s s' : Session} {n : ℕ}

theorem Session.progress_le (d : Dir) : s.progress d ≤ (s.way d).received.length + 1 := by
  simp only [progress]
  split <;> omega

/-- What was received stays. -/
theorem received_le {e : Event} (hr : Rule s e s') (d : Dir) :
    (s.way d).received.length ≤ (s'.way d).received.length := by
  rcases (frame_of_rule hr).received d with h | ⟨bytes, -, h⟩ <;> simp [h]

/-- No step undoes progress. -/
theorem progress_mono {e : Event} (hr : Rule s e s') (d : Dir) : s.progress d ≤ s'.progress d := by
  have hgrows := received_le hr d
  simp only [Session.progress]
  by_cases hd : (s.way d).relay = .done
  · have hd' : (s'.way d).relay = .done := by
      rw [relay_of_other hr fun he => relay_awaits hr he hd]
      exact hd
    simp only [hd, hd', if_true]
    omega
  · simp only [hd, if_false]
    split <;> omega

/-- A read that does not end the relay takes a byte, when the buffers have room. -/
theorem Roomy.read (h : Roomy n s) (hn : n ≠ 0) {d : Dir} {r : ReadResult}
    (hr : Rule s (.read d r) s') :
    (s'.way d).relay = .done ∨ (s.way d).received.length < (s'.way d).received.length := by
  cases hr with
  | @gotDirect _ live bytes hpc hp =>
    refine .inr ?_
    have hne : bytes ≠ [] := fun hb => hn (h.size ▸ hp.2.2.1 hb)
    rw [writeDirect_eq]
    simpa using List.length_pos_of_ne_nil hne
  | @gotProcess _ live bytes hpc hp =>
    refine .inr ?_
    obtain ⟨b, hb, hle⟩ := h.fits d live hpc
    have hne : bytes ≠ [] := by
      intro hbytes
      have h0 : s.room d = 0 := hp.2.2.1 hbytes
      rw [room, hb, Option.elim_some, UInt32.toNat_sub] at h0
      rw [UInt32.le_iff_toNat_le] at hle
      have hlt := b.getAvailable.toNat_lt
      simp at h0 hle
      omega
    rw [writeProcess_eq]
    simpa using List.length_pos_of_ne_nil hne
  | readEof =>
    rw [relayEof_eq]
    simp
  | readError => simp [Session.relayClose]

/-- **An iteration makes progress.** -/
theorem Roomy.progress_read (h : Roomy n s) (hn : n ≠ 0) {d : Dir} {r : ReadResult}
    (hr : Rule s (.read d r) s') : s.progress d < s'.progress d := by
  have hgrows := received_le hr d
  have hd : (s.way d).relay ≠ .done := relay_awaits hr rfl
  have hread := h.read hn hr
  simp only [Session.progress, hd, if_false]
  split <;> rename_i hd'
  · omega
  · rcases hread with hread | hread
    · exact absurd hread hd'
    · omega

/-- The iterations of a run are paid for by its progress. -/
theorem Roomy.run (hn : n ≠ 0) {es : List Event} (h : Roomy n s)
    (hrun : run Session.step s es = some s') (d : Dir) :
    s.progress d + iterations d es ≤ s'.progress d := by
  induction es generalizing s with
  | nil =>
    cases hrun
    simp [iterations]
  | cons e es ih =>
    obtain ⟨s₁, hst, hrun⟩ := Option.bind_eq_some_iff.1 hrun
    have hr := rule_of_step hst
    have hrest := ih (h.step hr) hrun
    simp only [iterations, List.countP_cons, decide_eq_true_eq] at hrest ⊢
    split
    · rename_i he
      cases e with
      | read d' r =>
        obtain rfl : d' = d := he
        have hread := h.progress_read hn hr
        omega
      | _ => exact he.elim
    · have hmono := progress_mono hr d
      omega

end

/-! ## Which configurations progress -/

/-- A relay is resumed in each of its iterations. -/
theorem iterations_le (d : Dir) (es : List Event) : iterations d es ≤ resumptions (.relay d) es := by
  refine List.countP_mono_left fun e _ he => ?_
  simp only [decide_eq_true_eq] at he ⊢
  cases e with
  | read d' r => exact congrArg Tid.relay he
  | _ => exact he.elim

theorem progresses_of_ne {c : Conf} (hn : c.connBufSize ≠ 0) : Progresses c := by
  have hroomy : ∀ {s}, Reach Session.step (fun _ _ => True) (Session.init c) s →
      Roomy c.connBufSize s := fun h =>
    h.inv (Roomy.init c) fun _ _ _ hg _ he => hg.step (rule_of_step he)
  refine ⟨fun s h d r s' hst => ?_, fun s h es s' hrun d => ?_, fun s h hc es s' hrun d => ?_⟩
  · exact ((hroomy h).read hn (rule_of_step hst)).imp id .inr
  · have hpaid := Roomy.run hn (hroomy h) hrun d
    have hle := s'.progress_le d
    have hge : (s.way d).received.length ≤ s.progress d := Nat.le_add_right _ _
    omega
  · have hle := iterations_le d es
    have hfive := (closed_drains h hc hrun).2.2 (.relay d)
    omega

/-- With an empty buffer the first read of the client takes nothing. -/
theorem not_progresses {c : Conf} (hn : c.connBufSize = 0) : ¬ Progresses c := by
  intro h
  have hst : (Session.init c).step (.read .req (.data [])) =
      some ((Session.init c).writeDirect .req []) := by
    have hsize : (Session.init c).connBufSize = 0 := (Roomy.init c).size.trans hn
    have hpc : ((Session.init c).way .req).relay = .readDirect true := rfl
    have hp : (ReadResult.data []).Possible true (Session.init c).connBufSize :=
      ⟨rfl, Nat.zero_le _, fun _ => hsize, fun _ => rfl⟩
    simp only [Session.step, onRead, hpc, if_pos hp]
  have hread := h.consumes _ .refl _ _ _ hst
  simp [writeDirect_eq] at hread

/-- The session of a server, as `setup_proxy` sets it up. -/
def ServerInfo.conf (server : ServerInfo) (fourTuple : List Byte)
    (hlen : fourTuple.length < 2 ^ 32) : Conf where
  connBufSize := server.connBufSize.toNat
  responseBypass := server.responseBypass
  fourTuple := fourTuple
  fourTuple_len := hlen

/-- The relays of every session of a configuration make progress. -/
def Config.Progresses (c : Config) : Prop :=
  ∀ port server, c.getProxyServer port = .found server →
    ∀ fourTuple hlen, CppProxy.Progresses (server.conf fourTuple hlen)

/-- The servers that are looked up have a buffer size. -/
def Entities.Buffered (entities : Entities) : Prop :=
  ∀ e ∈ entities.elems, ∀ server ∈ e.servers.head?, server.connBufSize ≠ 0

/-- The server of a port is the first of its entity. -/
theorem getProxyServer_head {c : Config} {e : ProxyEntity} (he : e ∈ c.entities.elems)
    {server : ServerInfo} (hs : server ∈ e.servers.head?) :
    c.getProxyServer e.listenPort = .found server := by
  have hfind : c.entities.find e.listenPort.toNat = some e := KeyedSet.find_of_mem he
  cases hsv : e.servers with
  | nil => simp [hsv] at hs
  | cons server' servers =>
    simp only [hsv, List.head?_cons, Option.mem_some_iff] at hs
    simp only [Config.getProxyServer, hfind, hsv, hs]

theorem mem_of_getProxyServer {c : Config} {port : UInt16} {server : ServerInfo}
    (h : c.getProxyServer port = .found server) :
    ∃ e ∈ c.entities.elems, server ∈ e.servers.head? := by
  cases hfind : c.entities.find port.toNat with
  | none => simp [Config.getProxyServer, hfind] at h
  | some e =>
    refine ⟨e, (KeyedSet.mem_of_find hfind).1, ?_⟩
    cases hsv : e.servers with
    | nil => simp [Config.getProxyServer, hfind, hsv] at h
    | cons server' servers => simpa [Config.getProxyServer, hfind, hsv] using h

/-- **The sessions of a configuration make progress** exactly when the buffer size of
    every server that is looked up is not 0. -/
theorem progresses_iff (c : Config) : c.Progresses ↔ c.entities.Buffered := by
  constructor
  · intro h e he server hs h0
    refine not_progresses ?_ (h _ server (getProxyServer_head he hs) [] (by decide))
    rw [ServerInfo.conf, h0]
    rfl
  · intro h port server hfound fourTuple hlen
    obtain ⟨e, he, hs⟩ := mem_of_getProxyServer hfound
    refine progresses_of_ne fun h0 => h e he server hs ?_
    exact UInt64.toNat_inj.1 h0

/-- The server 10.0.0.1:80 with an empty buffer, for the port 80. -/
def emptyBuffer : Option Json := fileOf [.object [("conn_buf_size", .number 0),
  ("ip", .string "10.0.0.1"), ("port", .number 80)]] [80]

/-- A file with the buffer size 0 is accepted, and its sessions spin. -/
theorem not_progresses_accepted : ¬ ∀ (c c' : Config) (content : Option Json),
    c.parseConf content = .ok c' → c'.Progresses := by
  intro h
  obtain ⟨c', hc', hb⟩ : ∃ c', Config.parseConf {} emptyBuffer = .ok c' ∧
      c'.getProxyServer 80 = .found ⟨"10.0.0.1", 80, 0, true⟩ := ⟨_, rfl, by decide +kernel⟩
  exact not_progresses rfl (h {} c' _ hc' 80 _ hb [] (by decide))

end CppProxy
