/-
  cpp_proxy — a session in memory.

  A session keeps each stored packet with its bytes; the code keeps a pointer into a
  block that later reads go on to fill, and takes off the queue what an earlier release
  had counted.  A run of a session is followed, in each direction, by a run of the
  memory, whose queue points at the same bytes.

  * `Memory.Mirrors`: the memory of a lane;
  * `mirrors_move`: a move of the lane is a move of its memory;
  * `mirrored`: a run of a session has a run of the memory beside it, which stays intact,
    while packets are released alone and the totals are not below the counters;
  * `mirrored_of_keepsApartShort`: while the connection lasts, they are.
-/
import Mathlib.Data.Finset.Card
import CppProxy.Lanes
import CppProxy.Storage
import CppProxy.System

namespace CppProxy

open Session Runs

/-! ## Operations in progress -/

/-- The releases are those of the readers `ids`, in this order. -/
structure ReleasedBy (releasing : ℕ → Option (ℕ × Int32)) (releases : List Release)
    (ids : List ℕ) : Prop where
  nodup : ids.Nodup
  all : ∀ i p, releasing i = some p → i ∈ ids
  counts : List.Forall₂
    (fun i r => releasing i = some (r.handledPkgCount, r.nextPkgUsedSize)) ids releases

namespace ReleasedBy

variable {releasing : ℕ → Option (ℕ × Int32)} {releases : List Release} {ids : List ℕ} {i : ℕ}

theorem not_mem (h : ReleasedBy releasing releases ids) (hi : releasing i = none) : i ∉ ids := by
  intro hmem
  obtain ⟨r, -, hr⟩ := h.counts.exists_left hmem
  rw [hi] at hr
  cases hr

/-- A reader starts a release. -/
theorem push (h : ReleasedBy releasing releases ids) (hi : releasing i = none) (r : Release) :
    ReleasedBy (Function.update releasing i (some (r.handledPkgCount, r.nextPkgUsedSize)))
      (releases ++ [r]) (ids ++ [i]) where
  nodup := by
    rw [← List.concat_eq_append]
    exact h.nodup.concat (h.not_mem hi)
  all j p hj := by
    by_cases hji : j = i
    · subst hji
      simp
    · rw [Function.update_of_ne hji] at hj
      exact List.mem_append_left _ (h.all j p hj)
  counts := by
    refine List.rel_append (h.counts.imp_mem fun j hj r' _ hr => ?_) (.cons ?_ .nil)
    · have hji : j ≠ i := fun heq => h.not_mem hi (heq ▸ hj)
      rw [Function.update_of_ne hji]
      exact hr
    · exact Function.update_self _ _ _

/-- The release of a reader ends. -/
theorem drop (h : ReleasedBy releasing releases ids) {p : ℕ × Int32} (hi : releasing i = some p) :
    ∃ k r, releases[k]? = some r ∧ (r.handledPkgCount, r.nextPkgUsedSize) = p ∧
      (∀ r' ∈ releases.eraseIdx k, ∃ j ≠ i,
        releasing j = some (r'.handledPkgCount, r'.nextPkgUsedSize)) ∧
      ReleasedBy (Function.update releasing i none) (releases.eraseIdx k) (ids.eraseIdx k) := by
  obtain ⟨k, hk, hget⟩ := List.mem_iff_getElem.1 (h.all i p hi)
  have hkr : k < releases.length := h.counts.length_eq ▸ hk
  have hpair := h.counts.get hk hkr
  simp only [List.get_eq_getElem, hget, hi, Option.some.injEq] at hpair
  have hother : ∀ j, j ∈ ids.eraseIdx k ↔ j ≠ i ∧ j ∈ ids := by
    intro j
    rw [← hget, ← h.nodup.erase_getElem k hk]
    exact h.nodup.mem_erase_iff
  refine ⟨k, releases[k], List.getElem?_eq_getElem hkr, hpair.symm, fun r' hr' => ?_, ?_, ?_, ?_⟩
  · obtain ⟨j, hj, hjr⟩ := (h.counts.eraseIdx k).exists_right hr'
    exact ⟨j, ((hother j).1 hj).1, hjr⟩
  · exact h.nodup.sublist (List.eraseIdx_sublist _ _)
  · intro j q hj
    have hji : j ≠ i := by
      rintro rfl
      rw [Function.update_self] at hj
      cases hj
    rw [Function.update_of_ne hji] at hj
    exact (hother j).2 ⟨hji, h.all j q hj⟩
  · refine (h.counts.eraseIdx k).imp_mem fun j hj r' _ hjr => ?_
    rw [Function.update_of_ne ((hother j).1 hj).1]
    exact hjr

end ReleasedBy

/-- So many coroutines flush. -/
def FlushedBy (flushing : Tid → Bool) (n : ℕ) : Prop :=
  ∃ ts : Finset Tid, (∀ t, t ∈ ts ↔ flushing t = true) ∧ ts.card = n

namespace FlushedBy

variable {flushing : Tid → Bool} {n : ℕ} {t : Tid}

/-- A coroutine starts to flush. -/
theorem push (h : FlushedBy flushing n) (ht : flushing t = false) :
    FlushedBy (Function.update flushing t true) (n + 1) := by
  obtain ⟨ts, hts, rfl⟩ := h
  have hno : t ∉ ts := by
    rw [hts, ht]
    exact Bool.false_ne_true
  refine ⟨insert t ts, fun t' => ?_, Finset.card_insert_of_notMem hno⟩
  rw [Finset.mem_insert, hts]
  by_cases heq : t' = t
  · subst heq
    simp
  · simp [heq]

/-- A coroutine has flushed. -/
theorem drop (h : FlushedBy flushing n) (ht : flushing t = true) :
    n ≠ 0 ∧ FlushedBy (Function.update flushing t false) (n - 1) := by
  obtain ⟨ts, hts, rfl⟩ := h
  have hmem : t ∈ ts := (hts t).2 ht
  refine ⟨Finset.card_ne_zero_of_mem hmem, ts.erase t, fun t' => ?_, Finset.card_erase_of_mem hmem⟩
  rw [Finset.mem_erase, hts]
  by_cases heq : t' = t
  · subst heq
    simp
  · simp [heq]

end FlushedBy

/-! ## The memory of a lane -/

/-- A direction with this queue, block and counter. -/
def Lane.way (l : Lane) : Way where
  storedData := l.storedData
  block := l.block
  handledTotalPkgLen := l.handledTotalPkgLen

/-- A session with this lane. -/
def Lane.session (l : Lane) : Session where
  way _ := l.way

/-- The memory holds the packets of a lane, and has the same operations in progress. -/
structure Memory.Mirrors (m : Memory) (l : Lane) : Prop where
  holds : m.Holds l.way
  reading : m.reading.isSome = l.reading
  releases : ∃ ids, ReleasedBy l.releasing m.releases ids
  flushes : FlushedBy l.flushing m.flushes

/-- Only the queue, the block and the counter of a direction are held. -/
theorem Memory.Holds.congr {m : Memory} {w w' : Way} (h : m.Holds w)
    (hs : w'.storedData = w.storedData) (hb : w'.block = w.block)
    (hc : w'.handledTotalPkgLen = w.handledTotalPkgLen) : m.Holds w' where
  stored := hs ▸ h.stored
  block := hb ▸ h.block
  counter := hc ▸ h.counter

theorem Memory.startRead_rest (m : Memory) : m.startRead.reading.isSome = true ∧
    m.startRead.releases = m.releases ∧ m.startRead.flushes = m.flushes := by
  unfold Memory.startRead
  split
  · split
    · exact ⟨rfl, rfl, rfl⟩
    · exact ⟨rfl, rfl, rfl⟩
  · exact ⟨rfl, rfl, rfl⟩

namespace Memory.Mirrors

variable {m : Memory} {l l' : Lane} {type : DataType}

theorem init : Memory.Mirrors {} {} where
  holds := ⟨.nil, rfl, rfl⟩
  reading := rfl
  releases := ⟨[], ⟨List.nodup_nil, fun i p hi => (by cases hi), .nil⟩⟩
  flushes := ⟨∅, fun t => by simp, rfl⟩

/-- What a release that awaits its write takes off the queue. -/
theorem clear_of_mem (hm : m.Sound) {r : Release} (hr : r ∈ m.releases) :
    ∃ kept, clearPackets m.storedData r.handledPkgCount r.nextPkgUsedSize = some kept ∧
      Fits m.storedData r.handledPkgCount r.nextPkgUsedSize := by
  by_cases hs : r.Selects
  · obtain ⟨kept, hc, hf, -⟩ := hm.fronts r hr hs
    exact ⟨kept, hc, hf⟩
  · refine ⟨m.storedData, Memory.clearPackets_of_not_selects hs _, fun p _ => ?_⟩
    rw [not_not.1 (not_or.1 hs).2]
    exact ⟨le_rfl, Int.natCast_nonneg _⟩

/-- **The memory moves with its lane.** -/
theorem move (h : m.Mirrors l) (hm : m.Sound) (hl : l.Move l') : ∃ e m',
    (m.AtLeast e ∧ m.ReleasesAlone e) ∧ m.step type e = some m' ∧ m'.Mirrors l' := by
  obtain ⟨hh, hread, ⟨ids, hrel⟩, hflush⟩ := h
  cases hl with
  | startRead hno =>
    have hnone : m.reading = none := by rw [← Option.not_isSome_iff_eq_none, hread, hno]; simp
    obtain ⟨hr, hrs, hfs⟩ := m.startRead_rest
    refine ⟨.startRead, m.startRead, ⟨trivial, trivial⟩, if_pos hnone, ?_, hr, ⟨ids, ?_⟩, ?_⟩
    · have hstart := Memory.Holds.startRead (s := l.session) (d := .req) hh hm
      exact hstart.congr rfl rfl rfl
    · rw [hrs]
      exact hrel
    · rw [hfs]
      exact hflush
  | @store data hyes hlen =>
    obtain ⟨r, hr⟩ : ∃ r, m.reading = some r := Option.isSome_iff_exists.1 (hread.trans hyes)
    obtain ⟨k, hk, -, hav, -⟩ := hm.reading r hr
    have hroom : data.length ≤ (r.available - 5).toNat := by
      have hb := hh.block
      rw [hk, Option.map_some] at hb
      have hlb : l.block = some (m.blocks k).toDataBlock := hb.symm
      rw [hlb] at hlen
      rw [hav]
      exact hlen
    obtain ⟨-, -, hdone, -⟩ := Memory.store_rest hk type r data
    have hrest : (m.store type r data).releases = m.releases ∧
        (m.store type r data).flushes = m.flushes := by simp [Memory.store, hk]
    refine ⟨.readDone data, m.store type r data, ⟨trivial, trivial⟩, ?_, ?_, ?_, ⟨ids, ?_⟩, ?_⟩
    · simp only [Memory.step, hr, if_pos hroom]
    · have hstore : (m.store type r data).Holds ((l.session.writeProcess .req data).way .req) :=
        Memory.Holds.store hh hm hr hroom
      rw [writeProcess_eq] at hstore
      exact hstore.congr rfl rfl rfl
    · rw [hdone]
      rfl
    · rw [hrest.1]
      exact hrel
    · rw [hrest.2]
      exact hflush
  | stopRead hyes =>
    have hsome : m.reading ≠ none := by
      rw [← Option.isSome_iff_ne_none, hread, hyes]
    refine ⟨.readError, _, ⟨trivial, trivial⟩, if_neg hsome, ?_, rfl, ⟨ids, hrel⟩, hflush⟩
    exact ⟨Memory.Holds.stored_congr hh.stored fun _ _ => rfl, hh.block, hh.counter⟩
  | @select i head r hno hpass hr hle =>
    obtain ⟨hs, r', w, hrs, hpc⟩ :
        (m.select head).Holds ((l.session.actOnHead i .req 0 head).way .req) ∧
          ∃ r w, (m.select head).releases = m.releases ++ [r] ∧
            ((l.session.actOnHead i .req 0 head).readers i).pc =
              .release .req r.handledPkgCount r.nextPkgUsedSize w := Memory.Holds.select hh hpass
    have hact : l.session.actOnHead i .req 0 head = l.session.releasing i .req 0 head r := by
      rw [hr, actOnHead, if_neg hpass]
      rfl
    rw [hact] at hs hpc
    simp only [releasing, Function.update_self, ReaderPc.release.injEq, true_and] at hpc
    obtain ⟨hcount, hnext, -⟩ := hpc
    refine ⟨.select head, m.select head, ⟨?_, trivial⟩, rfl, ?_, hread, ⟨ids ++ [i], ?_⟩, hflush⟩
    · exact hh.counter.trans_le hle
    · exact hs.congr rfl rfl rfl
    · rw [hrs, hcount, hnext]
      exact hrel.push hno r'
  | @written i p hp halone =>
    obtain ⟨k, r, hk, rfl, hothers, hdrop⟩ := hrel.drop hp
    obtain ⟨kept, hc, hf⟩ := clear_of_mem hm (List.mem_of_getElem? hk)
    obtain ⟨kept', hc', hkept⟩ := hh.clear hm hc hf
    have hkept' : (clearHandledPacket l.storedData r.handledPkgCount r.nextPkgUsedSize).getD
        l.storedData = kept' := by
      rw [show l.storedData = l.way.storedData from rfl, hc', Option.getD_some]
    have hmem : m.clearReleased k r =
        { m with releases := m.releases.eraseIdx k, storedData := kept } := by
      simp only [Memory.clearReleased, hc]
    refine ⟨.written k, m.clearReleased k r, ⟨trivial, ?_⟩, ?_, ?_⟩
    · intro r₁ hr₁ hsel r' hr' hsel'
      rw [hk] at hr₁
      cases hr₁
      obtain ⟨j, hj, hjr⟩ := hothers r' hr'
      exact halone hsel j hj _ hjr hsel'
    · simp only [Memory.step, hk, Option.map_some]
    · rw [hmem, hkept']
      refine ⟨?_, hread, ⟨_, hdrop⟩, hflush⟩
      exact ⟨Memory.Holds.stored_congr hkept.stored fun _ _ => rfl, hh.block, hh.counter⟩
  | @unwritten i p hp =>
    obtain ⟨k, r, hk, rfl, -, hdrop⟩ := hrel.drop hp
    have hlt : k < m.releases.length := (List.getElem?_eq_some_iff.1 hk).1
    refine ⟨.writeFailed k, _, ⟨trivial, trivial⟩, if_pos hlt, ?_, hread, ⟨_, hdrop⟩, hflush⟩
    exact ⟨Memory.Holds.stored_congr hh.stored fun _ _ => rfl, hh.block, hh.counter⟩
  | @startFlush t hno hs =>
    have hne : m.storedData ≠ [] := by
      intro he
      have hlen := hh.stored.length_eq
      rw [he] at hlen
      exact hs (List.length_eq_zero_iff.1 hlen.symm)
    refine ⟨.startFlush, _, ⟨trivial, trivial⟩, if_neg hne, ?_, hread, ⟨ids, hrel⟩, hflush.push hno⟩
    exact ⟨Memory.Holds.stored_congr hh.stored fun _ _ => rfl, hh.block, hh.counter⟩
  | @flushed t hyes halone =>
    obtain ⟨h0, hdrop⟩ := hflush.drop hyes
    refine ⟨.flushed, _, ⟨trivial, ?_⟩, if_neg h0, ?_, hread, ⟨ids, hrel⟩, hdrop⟩
    · intro r hr
      obtain ⟨i, -, hi⟩ := hrel.counts.exists_right hr
      exact halone i _ hi
    · exact ⟨.nil, hh.block, hh.counter⟩
  | @flushFailed t hyes =>
    obtain ⟨h0, hdrop⟩ := hflush.drop hyes
    refine ⟨.flushFailed, _, ⟨trivial, trivial⟩, if_neg h0, ?_, hread, ⟨ids, hrel⟩, hdrop⟩
    exact ⟨Memory.Holds.stored_congr hh.stored fun _ _ => rfl, hh.block, hh.counter⟩
  | reset =>
    refine ⟨.reset, _, ⟨trivial, trivial⟩, rfl, ?_, hread, ⟨ids, hrel⟩, hflush⟩
    exact ⟨Memory.Holds.stored_congr hh.stored fun _ _ => rfl, hh.block, rfl⟩

/-- Some moves of a lane are some moves of its memory. -/
theorem moves (hr : Reach (fun m => Memory.step m type) (fun m e => m.AtLeast e ∧ m.ReleasesAlone e)
    {} m) (h : m.Mirrors l) (hl : l.Moves l') :
    ∃ m', Reach (fun m => Memory.step m type) (fun m e => m.AtLeast e ∧ m.ReleasesAlone e) m m' ∧
      m'.Mirrors l' := by
  induction hl with
  | refl => exact ⟨m, .refl, h⟩
  | tail _ hmove ih =>
    obtain ⟨m₁, hm₁, hmir⟩ := ih
    have hsound : m₁.Sound := (hr.trans hm₁).inv Memory.Sound.init
      fun _ _ _ hm hC hst => hm.step hC.1 hC.2 hst
    obtain ⟨e, m', hC, hst, hmir'⟩ := hmir.move hsound hmove
    exact ⟨m', hm₁.tail hC hst, hmir'⟩

end Memory.Mirrors

/-! ## Whole runs -/

theorem lane_init (c : Conf) (d : Dir) : (Session.init c).lane d = {} := by
  cases d <;> refine Lane.ext rfl rfl rfl rfl rfl (funext fun t => ?_) <;>
    rcases t with (_ | _) | _ | _ | _ <;> rfl

/-- **A session in memory.**  While nothing is taken off a queue during another release,
    and no head that is acted on is below the counter, a run of the memory holds, packet
    by packet, the bytes that the session has stored, and stays intact. -/
theorem mirrored {c : Conf} {s : Session}
    (h : Reach Session.step (fun s e => ReleasesAlone s e ∧ AtLeast s e) (Session.init c) s)
    (d : Dir) : ∃ m, Reach (fun m => Memory.step m d.dataType)
      (fun m e => m.AtLeast e ∧ m.ReleasesAlone e) {} m ∧ m.Mirrors (s.lane d) ∧ m.Intact := by
  obtain ⟨m, hm, hmir⟩ : ∃ m, Reach (fun m => Memory.step m d.dataType)
      (fun m e => m.AtLeast e ∧ m.ReleasesAlone e) {} m ∧ m.Mirrors (s.lane d) := by
    refine h.simulate (R := fun s (m : Memory) => m.Mirrors (s.lane d)) ?_ ?_
    · rw [lane_init]
      exact .init
    · intro s m e s' hs hm hmir hC hst
      have hshape : Shape s := hs.inv (.init c) fun _ _ _ hI _ hst => hI.step (rule_of_step hst)
      exact hmir.moves hm (moves_of_rule hshape hC.1 hC.2 (rule_of_step hst) d)
  exact ⟨m, hm, hmir, intact_of_releasesAlone hm⟩

/-- Two bytes of three are released, and the third is where it was. -/
theorem mirrored_cut : ∃ s : Session, (s.way .req).storedData.map Packet.bytes = [[4]] ∧
    ∃ m, Reach (fun m => Memory.step m Dir.req.dataType)
      (fun m e => m.AtLeast e ∧ m.ReleasesAlone e) {} m ∧ m.Mirrors (s.lane .req) ∧ m.Intact := by
  obtain ⟨s, hs, hp⟩ := exists_runIf Session.step (fun s e => ReleasesAlone s e ∧ AtLeast s e)
    (Session.init (localConf true))
    (firstUp ++ [.read .req (.data [2, 3, 4]), .respond 1 (.pass 0 2), .pull 0 16,
      .complete (.reader 0), .push (.reader 0) 2, .complete (.reader 0)])
    (fun s => decide ((s.way .req).storedData.map Packet.bytes = [[4]])) (by decide +kernel)
  exact ⟨s, of_decide_eq_true hp, mirrored hs .req⟩

/-! ## While the connection lasts -/

/-- The one reader of a session whose connection lasts releases alone, and acts on
    totals that are not below the counter. -/
theorem Parting.guards {s s' : Session} (h : Parting s) (hs : Shape s) {e : Event}
    (hr : Rule s e s') : ReleasesAlone s e ∧ AtLeast s e := by
  have hlone : ∀ i, (s.readers i).pc ≠ .done → ∀ d, s.NoneElseReleases d (.reader i) := by
    intro i hi d j hj hne
    have h1 := h.alone
    have hi0 := (h.reader_eq hs hi).1
    exact absurd (by rw [hi0, show j = 0 by omega]) hne
  have hacting : ∀ i, (∀ r, (s.readers i).pc = .readHead r → r.Finished) →
      AtLeast s (.complete (.reader i)) := by
    intro i hf d head hact _
    cases hpc : (s.readers i).pc with
    | readHead r =>
      rw [hpc] at hact
      simp only [ReaderPc.acting, Option.mem_def, Option.ite_none_right_eq_some,
        Option.some.injEq] at hact
      obtain ⟨⟨-, ht⟩, rfl⟩ := hact
      obtain ⟨⟨n, -, htot⟩, -⟩ := (h.head i r hpc (hf r hpc)).2 d ht
      exact UInt64.le_iff_toNat_le.2 (htot ▸ Nat.le_add_right _ _)
    | readBody | writeNew =>
      have hplain := (h.plain i).1
      rw [hpc] at hplain
      exact hplain.elim
    | _ =>
      rw [hpc] at hact
      cases hact
  have hrelay : ∀ d', (∀ gen w, (s.way d').relay ≠ .flush gen w) →
      ReleasesAlone s (.complete (.relay d')) := by
    intro d' hno d hrem
    refine absurd ?_ hrem
    show (if d' = d then (s.way d).relay.flushing else none) = none
    split
    · rename_i hd
      subst hd
      cases hpc : (s.way d').relay with
      | flush gen w => exact absurd hpc (hno gen w)
      | _ => rfl
    · rfl
  have hreader : ∀ i, (s.readers i).pc ≠ .done →
      (∀ r, (s.readers i).pc = .readHead r → r.Finished) →
      ReleasesAlone s (.complete (.reader i)) ∧ AtLeast s (.complete (.reader i)) := by
    intro i hi hf
    exact ⟨fun d _ => hlone i hi d, hacting i hf⟩
  cases hr with
  | @notified d w hpc | @wroteDirect d w hpc | @wroteProcess d w hpc =>
    refine ⟨hrelay d fun gen w' hpc' => ?_, trivial⟩
    rw [hpc] at hpc'
    cases hpc'
  | @relayFlushed d gen w hpc hf => exact absurd hf.1 (by rw [h.flush d gen w hpc]; simp)
  | @gotHead i r hpc hf hb | @gotHeadOnly i r hpc hf hb =>
    refine hreader i (by rw [hpc]; simp) fun r' hpc' => ?_
    rw [hpc] at hpc'
    cases hpc'
    exact hf
  | @gotBody i head r hpc | @wroteNew i d conn head w hpc | @released i d count next w hpc
  | @flushedServer i gen w hpc | @flushedClient i gen w hpc =>
    refine hreader i (by rw [hpc]; simp) fun r' hpc' => ?_
    rw [hpc] at hpc'
    cases hpc'
  | connected | retry | wroteTuple | timedOut | rearm => exact ⟨fun d hrem => hrem.elim, trivial⟩
  | _ => exact ⟨trivial, trivial⟩

/-- **A session in memory, with the process behind it.**  While the connection lasts, a
    run of the memory holds the bytes that the session has stored, and stays intact. -/
theorem mirrored_of_keepsApartShort {c : Conf} {y : System}
    (h : Reach System.step System.KeepsApartShort (System.init c) y) (d : Dir) :
    ∃ m, Reach (fun m => Memory.step m d.dataType)
      (fun m e => m.AtLeast e ∧ m.ReleasesAlone e) {} m ∧
        m.Mirrors (y.proxy.lane d) ∧ m.Intact := by
  obtain ⟨m, hm, hmir⟩ : ∃ m, Reach (fun m => Memory.step m d.dataType)
      (fun m e => m.AtLeast e ∧ m.ReleasesAlone e) {} m ∧ m.Mirrors (y.proxy.lane d) := by
    refine h.simulate (R := fun y (m : Memory) => m.Mirrors (y.proxy.lane d)) ?_ ?_
    · rw [show (System.init c).proxy = Session.init c from rfl, lane_init]
      exact .init
    · intro y m e y' hy hm hmir hL hst
      have hs : y.Sound := hy.inv (.init c) fun _ _ _ hs hL he => hs.step hL he
      have hrule : ∀ {e s'}, Rule y.proxy e s' →
          ∃ m', Reach (fun m => Memory.step m d.dataType)
            (fun m e => m.AtLeast e ∧ m.ReleasesAlone e) m m' ∧ m'.Mirrors (s'.lane d) := by
        intro e s' hr
        obtain ⟨hA, hB⟩ := hs.parting.guards hs.intact.shape hr
        exact hmir.moves hm (moves_of_rule hs.intact.shape hA hB hr d)
      rcases System.step_cases hst with ⟨e₁, s', -, hr, -, rfl⟩ |
        ⟨g, e₁, p, s', -, -, -, -, hs', rfl⟩
      · exact hrule hr
      · rcases System.answer_eq hs' with ⟨-, rfl⟩ | ⟨r, -, hr⟩
        · exact ⟨m, .refl, hmir⟩
        · exact hrule hr
  exact ⟨m, hm, hmir, intact_of_releasesAlone hm⟩

/-- A payload of the client is released, and the next one is stored behind it. -/
theorem mirrored_stored : ∃ y : System, (y.proxy.way .req).handledTotalPkgLen = 1 ∧
    (y.proxy.way .req).storedData.map Packet.bytes = [[5, 6]] ∧
    ∃ m, Reach (fun m => Memory.step m Dir.req.dataType)
      (fun m e => m.AtLeast e ∧ m.ReleasesAlone e) {} m ∧
        m.Mirrors (y.proxy.lane .req) ∧ m.Intact := by
  obtain ⟨y, hy, hp⟩ := exists_runIf System.step System.KeepsApartShort
    (System.init (localConf true))
    (firstUp.map SystemEvent.proxy ++ tupleRead ++
      [.proxy (.read .req (.data [2])), .proxy (.push (.relay .req) 6),
        .process 1 (.pull [0, 1, 0, 0, 0]), .process 1 (.readDone true),
        .process 1 (.pull [2]), .process 1 (.readDone true), .process 1 (.push .setup 16),
        .proxy (.pull 0 16), .proxy (.complete (.reader 0)), .proxy (.push (.reader 0) 1),
        .proxy (.complete (.reader 0)), .proxy (.complete (.relay .req)),
        .proxy (.read .req (.data [5, 6]))])
    (fun y => decide ((y.proxy.way .req).handledTotalPkgLen = 1) &&
      decide ((y.proxy.way .req).storedData.map Packet.bytes = [[5, 6]])) (by decide +kernel)
  simp only [Bool.and_eq_true, decide_eq_true_eq] at hp
  exact ⟨y, hp.1, hp.2, mirrored_of_keepsApartShort hy .req⟩

end CppProxy
