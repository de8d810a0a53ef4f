/-
  cpp_proxy — the queue of a direction, and who is at it.

  Of all of a session, the memory of one direction knows its queue, its block and its
  counter, whether its relay reads for the process, which readers release packets of
  it, and which coroutines flush it.

  * `Lane`, `Session.lane`: these;
  * `Lane.Move`: what can happen to them;
  * `AtLeast`: a head that is acted on has a total that is not below the counter;
  * `lane_of_rule`: a step of a session moves its lanes, or leaves them.
-/
import Mathlib.Logic.Relation
import CppProxy.Align
import CppProxy.Removals

namespace CppProxy

open Session

/-! ## Lanes -/

/-- One direction of a session: its queue, its block and its counter, whether its relay
    reads for the process, what each reader is to take off the queue, and who
    flushes it. -/
@[ext] structure Lane where
  storedData : List Packet := []
  block : Option DataBlock := none
  handledTotalPkgLen : UInt64 := 0
  reading : Bool := false
  releasing : ℕ → Option (ℕ × Int32) := fun _ => none
  flushing : Tid → Bool := fun _ => false

/-- A release that takes something off the queue. -/
def Takes (p : ℕ × Int32) : Prop := p.1 ≠ 0 ∨ p.2 ≠ 0

namespace Lane

variable (l : Lane)

/-- The block of the next read. -/
def nextBlock : DataBlock :=
  match l.block with
  | some b => if b.getAvailable < 69 then .fresh else b
  | none => .fresh

/-- What can happen to a lane: a read starts, is stored or ends; a reader selects what a
    head releases, takes it off the queue, or fails; a flush starts, clears the queue or
    fails; `connect_process` zeroes the counter. -/
inductive Move : Lane → Prop
  | startRead (h : l.reading = false) : Move { l with block := some l.nextBlock, reading := true }
  | store {data : List Byte} (h : l.reading = true)
      (hlen : data.length ≤ (l.block.elim 0 fun b => b.getAvailable - 5).toNat) :
      Move { l with
        storedData := l.storedData ++ [Packet.ofData data]
        block := l.block.map fun b => b.updateAvailable (UInt32.ofNat data.length + 5)
        reading := false }
  | stopRead (h : l.reading = true) : Move { l with reading := false }
  | select {i : ℕ} {head : ResponseHead} {r : Prepared} (h : l.releasing i = none)
      (hpass : head.act ≠ Action.block.code)
      (hr : r = prepareTransferPacket head l.storedData l.handledTotalPkgLen)
      (hle : l.handledTotalPkgLen ≤ head.handledTotalPkgLen) :
      Move { l with
        handledTotalPkgLen := r.handledTotalPkgLen
        releasing := Function.update l.releasing i (some (r.handledPkgCount, r.nextPkgUsedSize)) }
  | written {i : ℕ} {p : ℕ × Int32} (h : l.releasing i = some p)
      (halone : Takes p → ∀ j ≠ i, ∀ q, l.releasing j = some q → ¬ Takes q) :
      Move { l with
        storedData := (clearHandledPacket l.storedData p.1 p.2).getD l.storedData
        releasing := Function.update l.releasing i none }
  | unwritten {i : ℕ} {p : ℕ × Int32} (h : l.releasing i = some p) :
      Move { l with releasing := Function.update l.releasing i none }
  | startFlush {t : Tid} (h : l.flushing t = false) (hs : l.storedData ≠ []) :
      Move { l with flushing := Function.update l.flushing t true }
  | flushed {t : Tid} (h : l.flushing t = true)
      (halone : ∀ i p, l.releasing i = some p → ¬ Takes p) :
      Move { l with storedData := [], flushing := Function.update l.flushing t false }
  | flushFailed {t : Tid} (h : l.flushing t = true) :
      Move { l with flushing := Function.update l.flushing t false }
  | reset : Move { l with handledTotalPkgLen := 0 }

/-- Some moves, one after the other. -/
def Moves : Lane → Lane → Prop := Relation.ReflTransGen Move

/-- A reader goes on: what it is to take off the queue, and whether it flushes. -/
def setReader (i : ℕ) (p : Option (ℕ × Int32)) (f : Bool) : Lane :=
  { l with
    releasing := Function.update l.releasing i p
    flushing := Function.update l.flushing (.reader i) f }

/-- The relay goes on: whether it reads for the process, and whether it flushes. -/
def setRelay (d : Dir) (r f : Bool) : Lane :=
  { l with reading := r, flushing := Function.update l.flushing (.relay d) f }

variable {l} {l' l'' : Lane}

@[simp] theorem setReader_releasing (l : Lane) (i : ℕ) (p : Option (ℕ × Int32)) (f : Bool) :
    (l.setReader i p f).releasing = Function.update l.releasing i p := rfl

@[simp] theorem setReader_flushing (l : Lane) (i : ℕ) (p : Option (ℕ × Int32)) (f : Bool) :
    (l.setReader i p f).flushing = Function.update l.flushing (.reader i) f := rfl

@[simp] theorem setReader_setReader (l : Lane) (i : ℕ) (p q : Option (ℕ × Int32)) (f g : Bool) :
    (l.setReader i p f).setReader i q g = l.setReader i q g := by
  simp [setReader]

@[simp] theorem setRelay_reading (l : Lane) (d : Dir) (r f : Bool) :
    (l.setRelay d r f).reading = r := rfl

@[simp] theorem setRelay_flushing (l : Lane) (d : Dir) (r f : Bool) :
    (l.setRelay d r f).flushing = Function.update l.flushing (.relay d) f := rfl

@[simp] theorem setRelay_setRelay (l : Lane) (d : Dir) (r f r' f' : Bool) :
    (l.setRelay d r f).setRelay d r' f' = l.setRelay d r' f' := by
  simp [setRelay]

theorem setReader_self {i : ℕ} {p : Option (ℕ × Int32)} {f : Bool} (hp : l.releasing i = p)
    (hf : l.flushing (.reader i) = f) : l.setReader i p f = l := by
  subst hp hf
  simp [setReader]

theorem setRelay_self {d : Dir} {r f : Bool} (hr : l.reading = r)
    (hf : l.flushing (.relay d) = f) : l.setRelay d r f = l := by
  subst hr hf
  simp [setRelay]

theorem Moves.refl (l : Lane) : l.Moves l := Relation.ReflTransGen.refl

theorem Moves.of_eq (h : l' = l) : l.Moves l' := by
  rw [h]
  exact Moves.refl l

theorem Move.moves (h : l.Move l') : l.Moves l' := Relation.ReflTransGen.single h

theorem Moves.trans (h : l.Moves l') (h' : l'.Moves l'') : l.Moves l'' :=
  Relation.ReflTransGen.trans h h'

end Lane

/-- The lane of a direction. -/
def Session.lane (s : Session) (d : Dir) : Lane where
  storedData := (s.way d).storedData
  block := (s.way d).block
  handledTotalPkgLen := (s.way d).handledTotalPkgLen
  reading := decide (s.way d).relay.ReadsProcess
  releasing i := (s.readers i).pc.releasing d
  flushing t := (s.flushing d t).isSome

/-- A head that a reader acts on has a total that is not below the counter. -/
def AtLeast (s : Session) : Event → Prop
  | .complete (.reader i) => ∀ d, ∀ head ∈ (s.readers i).pc.acting d,
      head.act ≠ Action.block.code → (s.way d).handledTotalPkgLen ≤ head.handledTotalPkgLen
  | _ => True

instance (s : Session) : ∀ e, Decidable (AtLeast s e)
  | .complete (.reader i) => inferInstanceAs
    (Decidable (∀ d, ∀ head ∈ (s.readers i).pc.acting d, _ → _))
  | .complete (.relay _) | .complete (.connector _) | .complete (.detector _)
  | .read _ _ | .push _ _ | .pull _ _ | .issue _ | .fail _ | .connect _ | .expire _
  | .respond _ _ => inferInstanceAs (Decidable True)

theorem ReaderPc.releases_iff {pc : ReaderPc} {d : Dir} :
    pc.Releases d ↔ ∃ p, pc.releasing d = some p ∧ Takes p := by
  cases pc with
  | release d' count next w =>
    simp only [Releases, releasing, Option.ite_none_right_eq_some]
    constructor
    · rintro ⟨rfl, h⟩
      exact ⟨_, ⟨rfl, rfl⟩, h⟩
    · rintro ⟨_, ⟨rfl, hp⟩, h⟩
      cases hp
      exact ⟨rfl, h⟩
  | _ => simp [Releases, releasing]

namespace Session

variable {s s' : Session} {d d' : Dir}

/-! ## Lanes of a session -/

theorem lane_eq (hw : s'.way = s.way) (hr : s'.readers = s.readers) : s'.lane d = s.lane d := by
  have hf : s'.flushing d = s.flushing d := by
    funext t
    cases t <;> simp only [flushing, hw, hr]
  simp only [lane, hw, hr, hf]

/-- A relay moves on, with another queue, block and counter. -/
theorem lane_setWay (s : Session) (d : Dir) (w : Way) : (s.setWay d w).lane d = { s.lane d with
    storedData := w.storedData
    block := w.block
    handledTotalPkgLen := w.handledTotalPkgLen
    reading := decide w.relay.ReadsProcess
    flushing := Function.update (s.lane d).flushing (.relay d) w.relay.flushing.isSome } := by
  have hf : (fun t => ((s.setWay d w).flushing d t).isSome) =
      Function.update (s.lane d).flushing (.relay d) w.relay.flushing.isSome := by
    funext t
    cases t with
    | relay d₁ =>
      by_cases hd : d₁ = d
      · subst hd
        simp [flushing]
      · simp [flushing, lane, hd]
    | reader i => simp [flushing, lane, setWay]
    | connector | detector => simp [flushing, lane]
  simp only [lane, setWay_way, Function.update_self]
  ext1 <;> first | rfl | exact hf

theorem lane_setWay_ne (s : Session) (hd : d' ≠ d) (w : Way) : (s.setWay d' w).lane d = s.lane d := by
  have hw : (s.setWay d' w).way d = s.way d := by
    rw [setWay_way, Function.update_of_ne hd.symm]
  have hf : (s.setWay d' w).flushing d = s.flushing d := by
    funext t
    cases t with
    | relay d₁ =>
      by_cases hd₁ : d₁ = d <;> simp only [flushing, hd₁, hw, if_true, if_false]
    | reader i => rfl
    | connector | detector => rfl
  simp only [lane, hw, hf]
  rfl

theorem lane_setReader (s : Session) (i : ℕ) (pc : ReaderPc) (d : Dir) :
    (s.setReader i pc).lane d =
      (s.lane d).setReader i (pc.releasing d) (pc.flushing d).isSome := by
  ext1
  · rfl
  · rfl
  · rfl
  · rfl
  · funext j
    by_cases hj : j = i
    · subst hj
      simp [lane]
    · simp [hj, lane]
  · funext t
    cases t with
    | reader j =>
      by_cases hj : j = i
      · subst hj
        simp [lane, flushing]
      · simp [flushing, lane, hj]
    | relay d₁ => simp [flushing, lane, Session.setReader]
    | connector | detector => simp [flushing, lane]

theorem lane_setRelay (s : Session) (d : Dir) (pc : RelayPc) :
    (s.setRelay d pc).lane d =
      (s.lane d).setRelay d (decide pc.ReadsProcess) pc.flushing.isSome := lane_setWay s d _

theorem lane_setRelay_ne (s : Session) (hd : d' ≠ d) (pc : RelayPc) :
    (s.setRelay d' pc).lane d = s.lane d := lane_setWay_ne s hd _

/-- The relay stays where it is. -/
theorem lane_setWay_relay (s : Session) {w : Way} (hr : w.relay = (s.way d).relay) :
    (s.setWay d w).lane d = { s.lane d with
      storedData := w.storedData
      block := w.block
      handledTotalPkgLen := w.handledTotalPkgLen } := by
  have hf : Function.update (s.lane d).flushing (.relay d) w.relay.flushing.isSome =
      (s.lane d).flushing := by
    rw [hr, Function.update_eq_self_iff]
    simp [lane, flushing]
  rw [lane_setWay, hf, hr]
  rfl

/-- What is not about the queue of a direction leaves its lane. -/
theorem lane_accept (s : Session) (d' : Dir) (bytes : List Byte) (d : Dir) :
    (s.accept d' bytes).lane d = s.lane d := by
  by_cases hd : d' = d
  · subst hd
    rw [accept, lane_setWay_relay]
    · rfl
    · rfl
  · exact lane_setWay_ne s hd _

theorem lane_received (s : Session) (d' : Dir) (bytes : List Byte) (d : Dir) :
    (s.setWay d' { s.way d' with received := bytes }).lane d = s.lane d := by
  by_cases hd : d' = d
  · subst hd
    rw [lane_setWay_relay]
    · rfl
    · rfl
  · exact lane_setWay_ne s hd _

theorem lane_graceClose (s : Session) (d : Dir) : s.graceClose.lane d = s.lane d :=
  graceClose_ind (P := fun s' => s'.lane d = s.lane d) (fun _ => rfl) fun _ => rfl

theorem lane_readHead (s : Session) (i : ℕ) (d : Dir) :
    (s.readHead i).lane d = (s.lane d).setReader i none false := by
  rw [readHead, lane_setReader]
  congr 1
  exact lane_eq (noteRead_way s i) (noteRead_readers s i)

theorem lane_breakLink (s : Session) (w : LinkWrite) (d : Dir) : (s.breakLink w).lane d = s.lane d :=
  lane_eq (breakLink_way s w) (breakLink_readers s w)

theorem lane_readBody (s : Session) (i : ℕ) (head : ResponseHead) (d : Dir) :
    (s.readBody i head).lane d = (s.lane d).setReader i none false := by
  rw [readBody, lane_setReader]
  congr 1
  exact lane_eq (noteRead_way s i) (noteRead_readers s i)

/-- A reader is spawned. -/
theorem lane_superviseProcess (hs : Shape s) (j conn : ℕ) (d : Dir) :
    (s.superviseProcess j conn).lane d = s.lane d := by
  have hdone := hs.readers s.nReaders le_rfl
  have hspawn : (s.spawning j conn).lane d = s.lane d := by
    refine Lane.ext rfl rfl rfl rfl (funext fun i => ?_) (funext fun t => ?_)
    · by_cases hi : i = s.nReaders
      · subst hi
        simp [lane, spawning, hdone]
      · simp [lane, spawning, hi]
    · cases t with
      | reader i =>
        by_cases hi : i = s.nReaders
        · subst hi
          simp [lane, flushing, spawning, hdone]
        · simp [lane, flushing, spawning, hi]
      | relay d' | connector j' | detector k => rfl
  obtain ⟨detectors, nDetectors, heq⟩ := s.superviseProcess_detectors j conn
  have hlane : (s.superviseProcess j conn).lane d =
      ((s.spawning j conn).readHead s.nReaders).lane d := by
    rw [heq]
    rfl
  rw [hlane, lane_readHead, hspawn]
  refine Lane.setReader_self ?_ ?_
  · simp [lane, hdone, ReaderPc.releasing]
  · simp [lane, flushing, hdone, ReaderPc.flushing]

/-! ## What the functions do to a lane -/

/-- The lane of a direction when the relay of `d'` is at no queue. -/
def relayGone (s : Session) (d d' : Dir) : Lane :=
  if d' = d then (s.lane d).setRelay d false false else s.lane d

theorem relayGone_congr (h : s'.lane d = s.lane d) : s'.relayGone d d' = s.relayGone d d' := by
  unfold relayGone
  rw [h]

/-- A relay that comes to no queue. -/
theorem lane_setRelay_off {pc : RelayPc} (h : ¬ pc.ReadsProcess) (hf : pc.flushing = none) :
    (s.setRelay d' pc).lane d = s.relayGone d d' := by
  unfold relayGone
  split
  · rename_i hd
    subst hd
    rw [lane_setRelay, decide_eq_false h, hf]
    rfl
  · rename_i hd
    exact lane_setRelay_ne s hd pc

/-- A relay stops what it does. -/
theorem moves_relayGone (s : Session) (d d' : Dir) : (s.lane d).Moves (s.relayGone d d') := by
  unfold relayGone
  split
  case isFalse => exact .refl _
  case isTrue =>
    have hread : (s.lane d).reading = decide (s.way d).relay.ReadsProcess := rfl
    have hflush : (s.lane d).flushing (.relay d) = (s.way d).relay.flushing.isSome := by
      simp [lane, flushing]
    cases hpc : (s.way d).relay with
    | readProcess live =>
      rw [hpc] at hread hflush
      have hf : (s.lane d).setRelay d false false = { s.lane d with reading := false } :=
        Lane.ext rfl rfl rfl rfl rfl (Function.update_eq_self_iff.2 hflush.symm)
      rw [hf]
      exact (Lane.Move.stopRead hread).moves
    | flush gen w =>
      rw [hpc] at hread hflush
      refine (Lane.Move.flushFailed hflush).moves.trans (.of_eq ?_)
      exact Lane.ext rfl rfl rfl hread.symm rfl rfl
    | _ =>
      rw [hpc] at hread hflush
      exact .of_eq (Lane.setRelay_self hread hflush)

/-- A reader stops what it does. -/
theorem moves_readerGone (s : Session) (i : ℕ) (d : Dir) :
    (s.lane d).Moves ((s.lane d).setReader i none false) := by
  have hr : (s.lane d).releasing i = (s.readers i).pc.releasing d := rfl
  have hf : (s.lane d).flushing (.reader i) = ((s.readers i).pc.flushing d).isSome := rfl
  cases hrel : (s.readers i).pc.releasing d with
  | some p =>
    have hno : (s.readers i).pc.flushing d = none := by
      cases hpc : (s.readers i).pc with
      | release d' count next w => rfl
      | _ => simp [hpc, ReaderPc.releasing] at hrel
    rw [hno] at hf
    refine (Lane.Move.unwritten (hr.trans hrel)).moves.trans (.of_eq ?_)
    exact Lane.ext rfl rfl rfl rfl rfl (Function.update_eq_self_iff.2 hf.symm)
  | none =>
    rw [hrel] at hr
    cases hfl : ((s.readers i).pc.flushing d).isSome with
    | true =>
      refine (Lane.Move.flushFailed (hf.trans hfl)).moves.trans (.of_eq ?_)
      exact Lane.ext rfl rfl rfl rfl (Function.update_eq_self_iff.2 hr.symm) rfl
    | false => exact .of_eq (Lane.setReader_self hr (hf.trans hfl))

/-- The loop of a relay starts a read, or is at no queue. -/
theorem moves_relayLoop (s : Session) (d d' : Dir) :
    (s.relayGone d d').Moves ((s.relayLoop d').lane d) := by
  refine relayLoop_ind (P := fun s' => (s.relayGone d d').Moves (s'.lane d))
    (fun _ => ?_) (fun _ _ => ?_) (fun _ _ _ _ => ?_) (fun _ _ _ => ?_)
  · rw [lane_setRelay_off id rfl, relayGone_congr (lane_graceClose s d)]
    exact .refl _
  · exact .of_eq (lane_setRelay_off id rfl)
  · exact .of_eq (lane_setRelay_off id rfl)
  · unfold relayGone
    rw [innerClientOrServer2proxy2process]
    split
    · rename_i hd
      subst hd
      have hmove : Lane.Move ((s.lane d').setRelay d' false false) _ := .startRead rfl
      rw [lane_setWay]
      exact hmove.moves
    · rename_i hd
      exact .of_eq (lane_setWay_ne s hd _)

theorem moves_relayClose (s : Session) (d d' : Dir) : (s.lane d).Moves ((s.relayClose d').lane d) := by
  refine (moves_relayGone s d d').trans (.of_eq ?_)
  rw [relayClose, lane_setRelay_off id rfl]
  exact relayGone_congr (lane_graceClose s d)

/-- `connect_process` zeroes the counter, or is under way. -/
theorem moves_relayReconnect (s : Session) (d d' : Dir) (gen : ℕ) :
    (s.relayGone d d').Moves ((s.relayReconnect d' gen).lane d) := by
  have hconnect : (s.relayGone d d').Moves ((s.connectProcess gen).relayGone d d') := by
    refine connectProcess_ind (P := fun s' => (s.relayGone d d').Moves (s'.relayGone d d'))
      (fun _ => .refl _) (fun _ => ?_)
    have hmove := (Lane.Move.reset (l := s.relayGone d d')).moves
    unfold relayGone at hmove ⊢
    split
    · rename_i hd
      rw [if_pos hd] at hmove
      exact hmove
    · rename_i hd
      rw [if_neg hd] at hmove
      exact hmove
  exact hconnect.trans (moves_relayLoop _ d d')

theorem moves_readerReconnect (s : Session) (i gen : ℕ) (d : Dir) :
    ((s.lane d).setReader i none false).Moves ((s.readerReconnect i gen).lane d) := by
  rw [readerReconnect, lane_setReader]
  refine connectProcess_ind (P := fun s' => ((s.lane d).setReader i none false).Moves
    ((s'.lane d).setReader i none false)) (fun _ => .refl _) (fun _ => ?_)
  exact (Lane.Move.reset (l := (s.lane d).setReader i none false)).moves

/-- A relay starts to flush its queue, or reconnects. -/
theorem moves_relayFlush (s : Session) (d d' : Dir) (gen : ℕ) :
    (s.relayGone d d').Moves ((s.relayFlush d' gen).lane d) := by
  refine relayFlush_ind (P := fun s' => (s.relayGone d d').Moves (s'.lane d))
    (fun _ => moves_relayReconnect { s with bypass := true } d d' gen) (fun hs => ?_)
  unfold relayGone
  split
  · rename_i hd
    subst hd
    have hmove := (Lane.Move.startFlush (l := (s.lane d').setRelay d' false false)
      (t := .relay d') (Function.update_self _ _ _) hs).moves
    refine hmove.trans (.of_eq ?_)
    rw [lane_setRelay]
    exact Lane.ext rfl rfl rfl rfl rfl (Function.update_idem _ _ _).symm
  · rename_i hd
    exact .of_eq (lane_setRelay_ne _ hd _)

/-- A reader starts to flush the queue of `d'`. -/
theorem moves_reader_flushes (hs : (s.way d').storedData ≠ []) {i : ℕ} {pc : ReaderPc}
    (hr : ∀ d, pc.releasing d = none) (hf : ∀ d, (pc.flushing d).isSome = decide (d = d')) :
    ((s.lane d).setReader i none false).Moves ((s.setReader i pc).lane d) := by
  rw [lane_setReader, hr, hf]
  by_cases hd : d = d'
  · subst hd
    have hmove := (Lane.Move.startFlush (l := (s.lane d).setReader i none false)
      (t := .reader i) (Function.update_self _ _ _) hs).moves
    refine hmove.trans (.of_eq ?_)
    rw [decide_eq_true rfl]
    exact Lane.ext rfl rfl rfl rfl rfl (Function.update_idem _ _ _).symm
  · rw [decide_eq_false hd]
    exact .refl _

theorem moves_readerFlushClient (s : Session) (i gen : ℕ) (d : Dir) :
    ((s.lane d).setReader i none false).Moves ((s.readerFlushClient i gen).lane d) := by
  refine readerFlushClient_ind (P := fun s' =>
    ((s.lane d).setReader i none false).Moves (s'.lane d)) (fun _ => ?_) (fun hs => ?_)
  · exact moves_readerReconnect { s with bypass := true } i gen d
  · refine moves_reader_flushes (s := s) hs (fun _ => rfl) (fun d => ?_)
    cases d <;> rfl

theorem moves_readerFlushServer (s : Session) (i gen : ℕ) (d : Dir) :
    ((s.lane d).setReader i none false).Moves ((s.readerFlushServer i gen).lane d) := by
  refine readerFlushServer_ind (P := fun s' =>
    ((s.lane d).setReader i none false).Moves (s'.lane d)) (fun _ => ?_) (fun hs => ?_)
  · exact moves_readerFlushClient { s with bypass := true } i gen d
  · refine moves_reader_flushes (s := s) hs (fun _ => rfl) (fun d => ?_)
    cases d <;> rfl

/-- A reader acts on a head: it releases what the total is about, or closes. -/
theorem moves_actOnHead (s : Session) (i conn : ℕ) (d d' : Dir) (head : ResponseHead)
    (hle : head.act ≠ Action.block.code →
      (s.way d').handledTotalPkgLen ≤ head.handledTotalPkgLen) :
    ((s.lane d).setReader i none false).Moves ((s.actOnHead i d' conn head).lane d) := by
  refine actOnHead_ind (P := fun s' => ((s.lane d).setReader i none false).Moves (s'.lane d))
    (fun _ => ?_) (fun hpass => ?_)
  · rw [lane_setReader, lane_graceClose]
    exact .refl _
  · set r := prepareTransferPacket head (s.way d').storedData (s.way d').handledTotalPkgLen with hr
    have heq : (s.releasing i d' conn head r).lane d = ((s.setWay d' { s.way d' with
        handledTotalPkgLen := r.handledTotalPkgLen }).setReader i
          (.release d' r.handledPkgCount r.nextPkgUsedSize (s.asyncWrite d' r.bytes))).lane d :=
      lane_eq rfl rfl
    rw [heq, lane_setReader]
    by_cases hd : d' = d
    · subst hd
      have hmove := (Lane.Move.select (l := (s.lane d').setReader i none false)
        (Function.update_self _ _ _) hpass hr (hle hpass)).moves
      refine hmove.trans (.of_eq ?_)
      rw [lane_setWay_relay]
      · simp only [Lane.setReader, ReaderPc.releasing, if_true, Function.update_idem]
        rfl
      · rfl
    · rw [lane_setWay_ne s hd]
      simp only [ReaderPc.releasing, if_neg hd]
      exact .refl _

/-- A complete response. -/
theorem moves_dispatch (s : Session) (i conn : ℕ) (d : Dir) (head : ResponseHead) (buf : List Byte)
    (hle : ∀ d', head.newDataLen = 0 → DataType.ofCode head.type = some d'.dataType →
      head.act ≠ Action.block.code →
        (s.way d').handledTotalPkgLen ≤ head.handledTotalPkgLen) :
    ((s.lane d).setReader i none false).Moves ((s.dispatch i conn head buf).lane d) := by
  refine dispatch_ind (P := fun s' => ((s.lane d).setReader i none false).Moves (s'.lane d))
    (fun d' ht => ?_) ?_ ?_
  · refine innerProxy_ind (P := fun s' => ((s.lane d).setReader i none false).Moves (s'.lane d))
      (fun _ => ?_) (fun h0 => ?_)
    · rw [lane_setReader]
      exact .refl _
    · exact moves_actOnHead (s.emit (.response i head)) i conn d d' head (hle d' h0 ht)
  · rw [lane_readHead]
    exact .refl _
  · rw [lane_readHead]
    exact .refl _

/-- Nobody but `t` is to take anything off the queue. -/
theorem not_takes (hs : Shape s) {t : Tid} (h : s.NoneElseReleases d t) {j : ℕ}
    (hj : t ≠ .reader j) {p : ℕ × Int32} (hp : (s.lane d).releasing j = some p) : ¬ Takes p := by
  intro ht
  by_cases hlt : j < s.nReaders
  · exact h j hlt hj (ReaderPc.releases_iff.2 ⟨p, hp, ht⟩)
  · have hdone : (s.readers j).pc.releasing d = some p := hp
    rw [hs.readers j (Nat.le_of_not_lt hlt)] at hdone
    cases hdone

/-- The write of a release is done. -/
theorem moves_clearReleased (hs : Shape s) {i count : ℕ} {next : Int32} {w : PeerWrite}
    (hpc : (s.readers i).pc = .release d' count next w)
    (halone : ∀ d, s.Removes d (.reader i) → s.NoneElseReleases d (.reader i)) :
    (s.lane d).Moves ((s.clearReleased i d' count next).lane d) := by
  have hlane : (s.clearReleased i d' count next).lane d = ((s.setStored d'
      ((clearHandledPacket (s.way d').storedData count next).getD
        (s.way d').storedData)).lane d).setReader i none false := by
    refine clearReleased_ind (P := fun s' => s'.lane d = _) (fun stored hc => ?_) (fun hc => ?_)
    · rw [lane_readHead, hc]
      rfl
    · rw [lane_readHead, hc, Option.getD_none, setStored, setWay, Function.update_eq_self]
      rfl
  rw [hlane, setStored]
  by_cases hd : d' = d
  · subst hd
    have hrel : (s.lane d').releasing i = some (count, next) := by
      simp [lane, hpc, ReaderPc.releasing]
    have hno : (s.lane d').flushing (.reader i) = false := by
      simp [lane, flushing, hpc, ReaderPc.flushing]
    have hother : Takes (count, next) → ∀ j ≠ i, ∀ q, (s.lane d').releasing j = some q →
        ¬ Takes q := by
      intro ht j hj q hq
      have hrem : s.Removes d' (.reader i) := .inr (ReaderPc.releases_iff.2 ⟨_, hrel, ht⟩)
      exact not_takes hs (halone d' hrem) (fun h => hj (Tid.reader.inj h).symm) hq
    refine (Lane.Move.written hrel hother).moves.trans (.of_eq ?_)
    rw [lane_setWay_relay]
    · exact Lane.ext rfl rfl rfl rfl rfl (Function.update_eq_self_iff.2 hno.symm)
    · rfl
  · rw [lane_setWay_ne s hd]
    refine .of_eq (Lane.setReader_self ?_ ?_)
    · simp [lane, hpc, ReaderPc.releasing, hd]
    · simp [lane, flushing, hpc, ReaderPc.flushing]

/-- A relay has flushed its queue. -/
theorem moves_relayFlushed (hs : Shape s) {gen : ℕ} {w : PeerWrite}
    (hpc : (s.way d').relay = .flush gen w)
    (halone : ∀ d, s.Removes d (.relay d') → s.NoneElseReleases d (.relay d')) :
    (s.lane d).Moves ((s.clearFlushed d' w).relayGone d d') := by
  unfold relayGone
  split
  · rename_i hd
    subst hd
    have hf : s.flushing d' (.relay d') = some w.data := by simp [flushing, hpc, RelayPc.flushing]
    have hnone : ∀ j p, (s.lane d').releasing j = some p → ¬ Takes p := by
      intro j p hp
      refine not_takes hs (halone d' ?_) (by simp) hp
      rw [Removes, hf]
      exact Option.some_ne_none _
    have hmove := (Lane.Move.flushed (l := s.lane d') (t := .relay d')
      (congrArg Option.isSome hf) hnone).moves
    refine hmove.trans (.of_eq ?_)
    rw [clearFlushed, setStored, lane_setWay_relay]
    · have hread : (s.lane d').reading = false := by simp [lane, hpc, RelayPc.ReadsProcess]
      exact Lane.ext rfl rfl rfl hread.symm rfl rfl
    · rfl
  · rename_i hd
    exact .of_eq (lane_setWay_ne _ hd _)

/-- A reader has flushed the queue of `d'`. -/
theorem moves_readerFlushed (hs : Shape s) {i : ℕ} {w : PeerWrite}
    (hf : ∀ d, s.flushing d (.reader i) = if d = d' then some w.data else none)
    (hr : ∀ d, (s.readers i).pc.releasing d = none)
    (halone : ∀ d, s.Removes d (.reader i) → s.NoneElseReleases d (.reader i)) :
    (s.lane d).Moves (((s.clearFlushed d' w).lane d).setReader i none false) := by
  have hri : (s.lane d).releasing i = none := hr d
  rw [clearFlushed, setStored]
  by_cases hd : d' = d
  · subst hd
    have hfi : s.flushing d' (.reader i) = some w.data := by rw [hf, if_pos rfl]
    have hnone : ∀ j p, (s.lane d').releasing j = some p → ¬ Takes p := by
      intro j p hp
      by_cases hj : j = i
      · subst hj
        rw [hri] at hp
        cases hp
      · refine not_takes hs (halone d' ?_) (fun h => hj (Tid.reader.inj h).symm) hp
        rw [Removes, hfi]
        exact .inl (Option.some_ne_none _)
    have hmove := (Lane.Move.flushed (l := s.lane d') (t := .reader i)
      (congrArg Option.isSome hfi) hnone).moves
    refine hmove.trans (.of_eq ?_)
    rw [lane_setWay_relay]
    · exact Lane.ext rfl rfl rfl rfl (Function.update_eq_self_iff.2 hri.symm) rfl
    · rfl
  · rw [lane_setWay_ne _ hd]
    have hfi : (s.lane d).flushing (.reader i) = false := by
      show (s.flushing d (.reader i)).isSome = false
      rw [hf, if_neg (Ne.symm hd)]
      rfl
    exact .of_eq (Lane.setReader_self hri hfi)

/-- A relay has read data for the process. -/
theorem moves_writeProcess {live : Bool} (hpc : (s.way d').relay = .readProcess live)
    {data : List Byte} (hlen : data.length ≤ s.room d') :
    (s.lane d).Moves ((s.writeProcess d' data).lane d) := by
  have hlane : (s.writeProcess d' data).lane d = (s.setWay d' { s.way d' with
      received := (s.way d').received ++ data
      storedData := (s.way d').storedData ++ [Packet.ofData data]
      block := (s.way d').block.map fun b => b.updateAvailable (UInt32.ofNat data.length + 5)
      relay := .writeProcess (s.asyncWriteProcess (frame d'.dataType data)) }).lane d := by
    rw [writeProcess_eq]
    exact lane_eq rfl rfl
  rw [hlane]
  by_cases hd : d' = d
  · subst hd
    have hread : (s.lane d').reading = true := by simp [lane, hpc, RelayPc.ReadsProcess]
    have hno : (s.lane d').flushing (.relay d') = false := by
      simp [lane, flushing, hpc, RelayPc.flushing]
    refine (Lane.Move.store hread hlen).moves.trans (.of_eq ?_)
    rw [lane_setWay]
    exact Lane.ext rfl rfl rfl rfl rfl (Function.update_eq_self_iff.2 hno.symm)
  · exact .of_eq (lane_setWay_ne s hd _)

/-! ## Steps -/

/-- A part of a composed operation leaves the lanes. -/
theorem lane_setRelay_same {pc : RelayPc}
    (hr : pc.ReadsProcess ↔ (s.way d').relay.ReadsProcess)
    (hf : pc.flushing.isSome = (s.way d').relay.flushing.isSome) :
    (s.setRelay d' pc).lane d = s.lane d := by
  by_cases hd : d' = d
  · subst hd
    rw [lane_setRelay, hf]
    refine Lane.setRelay_self ?_ ?_
    · exact (decide_eq_decide.2 hr).symm
    · simp [lane, flushing]
  · exact lane_setRelay_ne s hd pc

theorem lane_setReader_same {i : ℕ} {pc : ReaderPc}
    (hr : pc.releasing d = (s.readers i).pc.releasing d)
    (hf : (pc.flushing d).isSome = ((s.readers i).pc.flushing d).isSome) :
    (s.setReader i pc).lane d = s.lane d := by
  rw [lane_setReader, hr, hf]
  exact Lane.setReader_self rfl rfl

theorem lane_setPeerWrite (s : Session) (w : PeerWrite) (t : Tid) (d : Dir) :
    (s.setPeerWrite w t).lane d = s.lane d := by
  cases t with
  | relay d' =>
    refine lane_setRelay_same ?_ ?_
    · cases (s.way d').relay <;> exact Iff.rfl
    · cases (s.way d').relay <;> rfl
  | reader i =>
    refine lane_setReader_same ?_ ?_
    · cases (s.readers i).pc <;> rfl
    · cases (s.readers i).pc <;> simp only [ReaderPc.setPeerWrite, ReaderPc.flushing]
      all_goals split <;> rfl
  | connector j | detector k => rfl

theorem lane_setLinkWrite (s : Session) (w : LinkWrite) (t : Tid) (d : Dir) :
    (s.setLinkWrite w t).lane d = s.lane d := by
  cases t with
  | relay d' =>
    refine lane_setRelay_same ?_ ?_
    · cases (s.way d').relay <;> exact Iff.rfl
    · cases (s.way d').relay <;> rfl
  | reader i | connector j | detector k => rfl

theorem lane_setLinkRead (s : Session) (i : ℕ) (r : LinkRead) (d : Dir) :
    (s.setLinkRead i r).lane d = s.lane d := by
  refine lane_setReader_same ?_ ?_
  · cases (s.readers i).pc <;> rfl
  · cases (s.readers i).pc <;> rfl

end Session

/-- **A step of a session moves its lanes.** -/
theorem moves_of_rule {s s' : Session} {e : Event} (hs : Shape s) (hA : ReleasesAlone s e)
    (hL : AtLeast s e) (hr : Rule s e s') (d : Dir) : (s.lane d).Moves (s'.lane d) := by
  cases hr with
  | @gotDirect d' live bytes hpc hr =>
    refine (moves_relayGone s d d').trans (.of_eq ?_)
    rw [writeDirect, lane_setRelay_off id rfl]
    exact relayGone_congr (lane_received (s.emit _) d' _ d)
  | @gotProcess d' live bytes hpc hr => exact moves_writeProcess hpc hr.2.1
  | @readEof d' live hpc hr =>
    refine (moves_relayGone s d d').trans (.of_eq ?_)
    rw [relayEof_eq, lane_setRelay_off id rfl]
    exact relayGone_congr (lane_graceClose _ d)
  | @readError d' live hpc => exact moves_relayClose s d d'
  | @pushPeer t k d' w hw hl ho h0 hk =>
    exact .of_eq ((lane_setPeerWrite _ _ _ d).trans (lane_accept s d' _ d))
  | pushLink => exact .of_eq (lane_setLinkWrite (s.sendLink _ _) _ _ d)
  | pull => exact .of_eq (lane_setLinkRead (s.setLink _) _ _ d)
  | issueWrite => exact .of_eq (lane_setLinkWrite s _ _ d)
  | @issueRead i r hr hi hw =>
    refine .of_eq ((lane_setLinkRead (s.noteRead i) _ _ d).trans ?_)
    exact lane_eq (noteRead_way s i) (noteRead_readers s i)
  | @notified d' w hpc hf =>
    exact (moves_relayGone s d d').trans (.of_eq (lane_setRelay_off id rfl))
  | @notifyFailed d' w hpc hf =>
    have hgone := moves_relayGone (s.breakLink w) d d'
    rw [lane_breakLink] at hgone
    exact hgone.trans (.of_eq (lane_setRelay_off id rfl))
  | @wroteDirect d' w hpc hf => exact (moves_relayGone s d d').trans (moves_relayLoop s d d')
  | @wroteProcess d' w hpc hf => exact (moves_relayGone s d d').trans (moves_relayLoop s d d')
  | @processFailed d' w hpc hf =>
    have hgone := moves_relayGone (s.breakLink w) d d'
    rw [lane_breakLink] at hgone
    exact hgone.trans (moves_relayFlush _ d d' w.gen)
  | @relayFlushed d' gen w hpc hf =>
    exact (moves_relayFlushed hs hpc hA).trans (moves_relayReconnect _ d d' gen)
  | @relayWriteFailed d' w hpc hf => exact moves_relayClose s d d'
  | @gotHead i r hpc hf hb =>
    exact (moves_readerGone s i d).trans (.of_eq (lane_readBody s i _ d))
  | @gotHeadOnly i r hpc hf hb =>
    refine (moves_readerGone s i d).trans (moves_dispatch s i r.gen d _ _ fun d' h0 ht => ?_)
    exact hL d' _ (by rw [hpc]; exact if_pos ⟨h0, ht⟩)
  | @gotBody i head r hpc hf =>
    refine (moves_readerGone s i d).trans (moves_dispatch s i r.gen d _ _ fun d' h0 ht => ?_)
    exact hL d' _ (by rw [hpc]; exact if_pos ⟨h0, ht⟩)
  | @readFailed i r hr hf =>
    refine (moves_readerGone s i d).trans ?_
    refine readerFailed_ind (P := fun s' => ((s.lane d).setReader i none false).Moves (s'.lane d))
      (fun _ => ?_) (fun _ => moves_readerFlushServer s i r.gen d)
    exact .of_eq (lane_setReader s i .done d)
  | @wroteNew i d' conn head w hpc hf =>
    refine (moves_readerGone s i d).trans (moves_actOnHead s i conn d d' head ?_)
    exact hL d' _ (by rw [hpc]; exact if_pos rfl)
  | @released i d' count next w hpc hf => exact moves_clearReleased hs hpc hA
  | @readerWriteFailed i d' w hpc hf =>
    refine (moves_readerGone s i d).trans (.of_eq ?_)
    rw [lane_setReader, lane_graceClose]
    rfl
  | @flushedServer i gen w hpc hf =>
    have hflush : ∀ d, s.flushing d (.reader i) = if d = .req then some w.data else none := by
      simp [flushing, hpc, ReaderPc.flushing]
    have hrel : ∀ d, (s.readers i).pc.releasing d = none := by simp [hpc, ReaderPc.releasing]
    exact (moves_readerFlushed hs hflush hrel hA).trans (moves_readerFlushClient _ i gen d)
  | @flushServerFailed i gen w hpc hf =>
    have hgone := moves_readerGone s.graceClose i d
    rw [lane_graceClose] at hgone
    have hflush := moves_readerFlushClient s.graceClose i gen d
    rw [lane_graceClose] at hflush
    exact hgone.trans hflush
  | @flushedClient i gen w hpc hf =>
    have hflush : ∀ d, s.flushing d (.reader i) = if d = .res then some w.data else none := by
      simp [flushing, hpc, ReaderPc.flushing]
    have hrel : ∀ d, (s.readers i).pc.releasing d = none := by simp [hpc, ReaderPc.releasing]
    exact (moves_readerFlushed hs hflush hrel hA).trans (moves_readerReconnect _ i gen d)
  | @flushClientFailed i gen w hpc hf =>
    have hgone := moves_readerGone s.graceClose i d
    rw [lane_graceClose] at hgone
    have hflush := moves_readerReconnect s.graceClose i gen d
    rw [lane_graceClose] at hflush
    exact hgone.trans hflush
  | connected | connectFailed | timedOut | connect | expire | respond => exact .refl _
  | @retry j hpc =>
    exact connectLoop_ind (P := fun s' => (s.lane d).Moves (s'.lane d)) (fun _ => .refl _)
      fun _ => .refl _
  | @rearm k conn hpc =>
    obtain ⟨detectors, heq⟩ := s.detectLoop_detectors k conn
    rw [heq]
    exact .refl _
  | @wroteTuple j conn w hpc hf =>
    exact .of_eq (lane_superviseProcess hs j conn d)
  | @tupleFailed j conn w hpc hf => exact .of_eq (lane_breakLink s w d)

end CppProxy
