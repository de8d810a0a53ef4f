/-
  cpp_proxy — the steps of a session as rules.

  `Rule s e s'` has one constructor for each stretch of code between two
  suspensions and for each move of the kernel.  `rule_of_step`: every step is an
  instance of a rule, so a property of the steps is a case analysis on the
  rules and never unfolds `step`.
-/
import CppProxy.Step

namespace CppProxy

open Session

/-- The moves of a session. -/
inductive Rule (s : Session) : Event → Session → Prop
  -- `async_read_some` in the relays
  | gotDirect {d live bytes} (hpc : (s.way d).relay = .readDirect live)
      (hr : (ReadResult.data bytes).Possible live s.connBufSize) :
      Rule s (.read d (.data bytes)) (s.writeDirect d bytes)
  | gotProcess {d live bytes} (hpc : (s.way d).relay = .readProcess live)
      (hr : (ReadResult.data bytes).Possible live (s.room d)) :
      Rule s (.read d (.data bytes)) (s.writeProcess d bytes)
  | readEof {d live} (hpc : (s.way d).relay = .readDirect live ∨ (s.way d).relay = .readProcess live)
      (hr : live = true) : Rule s (.read d .eof) (s.relayEof d)
  | readError {d live}
      (hpc : (s.way d).relay = .readDirect live ∨ (s.way d).relay = .readProcess live) :
      Rule s (.read d .error) (s.relayClose d)
  -- composed operations
  | pushPeer {t k d w} (hw : s.peerWrite t = some (d, w)) (hl : w.live = true)
      (ho : s.dstOpen d = true) (h0 : 0 < k) (hk : k ≤ w.rest.length) :
      Rule s (.push t k)
        ((s.accept d (w.rest.take k)).setPeerWrite { w with rest := w.rest.drop k } t)
  | pushLink {t k w} (hw : s.linkWrite t = some w) (hi : w.io = .live) (hg : w.gen = s.conns)
      (hs : s.proxyProcessSocket = .connected) (hb : s.link.broken = false) (h0 : 0 < k)
      (hk : k ≤ w.rest.length) :
      Rule s (.push t k)
        ((s.sendLink w k).setLinkWrite { w with io := .idle, rest := w.rest.drop k } t)
  | pull {i k r} (hr : s.linkRead i = some r) (hi : r.io = .live) (hg : r.gen = s.conns)
      (hs : s.proxyProcessSocket = .connected) (h0 : 0 < k) (hk : k ≤ r.want - r.got.length)
      (hin : k ≤ s.link.inbound.length) :
      Rule s (.pull i k) ((s.setLink { s.link with inbound := s.link.inbound.drop k }).setLinkRead i
        { r with io := .idle, got := r.got ++ s.link.inbound.take k })
  | issueWrite {t w} (hw : s.linkWrite t = some w) (hi : w.io = .idle) (hr : w.rest ≠ []) :
      Rule s (.issue t) (s.setLinkWrite { w with gen := s.conns, io := s.issued } t)
  | issueRead {i r} (hr : s.linkRead i = some r) (hi : r.io = .idle) (hw : r.got.length < r.want) :
      Rule s (.issue (.reader i))
        ((s.noteRead i).setLinkRead i { r with gen := s.conns, io := s.issued })
  -- the relays
  | notified {d w} (hpc : (s.way d).relay = .notify w) (hf : w.Finished) :
      Rule s (.complete (.relay d)) (s.relayDirect d)
  | notifyFailed {d w} (hpc : (s.way d).relay = .notify w) (hf : w.CanFail) :
      Rule s (.fail (.relay d)) ((s.breakLink w).relayDirect d)
  | wroteDirect {d w} (hpc : (s.way d).relay = .writeDirect w) (hf : w.Finished) :
      Rule s (.complete (.relay d)) (s.relayLoop d)
  | wroteProcess {d w} (hpc : (s.way d).relay = .writeProcess w) (hf : w.Finished) :
      Rule s (.complete (.relay d)) (s.relayLoop d)
  | processFailed {d w} (hpc : (s.way d).relay = .writeProcess w) (hf : w.CanFail) :
      Rule s (.fail (.relay d)) ((s.breakLink w).relayFlush d w.gen)
  | relayFlushed {d gen w} (hpc : (s.way d).relay = .flush gen w) (hf : w.Finished) :
      Rule s (.complete (.relay d)) ((s.clearFlushed d w).relayReconnect d gen)
  | relayWriteFailed {d w} (hpc : (s.way d).relay.peerWrite = some w) (hf : w.CanFail) :
      Rule s (.fail (.relay d)) (s.relayClose d)
  -- the readers
  | gotHead {i r} (hpc : (s.readers i).pc = .readHead r) (hf : r.Finished)
      (hb : (ResponseHead.ofBytes r.got).newDataLen ≠ 0) :
      Rule s (.complete (.reader i)) (s.readBody i (ResponseHead.ofBytes r.got))
  | gotHeadOnly {i r} (hpc : (s.readers i).pc = .readHead r) (hf : r.Finished)
      (hb : (ResponseHead.ofBytes r.got).newDataLen = 0) :
      Rule s (.complete (.reader i)) (s.dispatch i r.gen (ResponseHead.ofBytes r.got) [])
  | gotBody {i head r} (hpc : (s.readers i).pc = .readBody head r) (hf : r.Finished) :
      Rule s (.complete (.reader i)) (s.dispatch i r.gen head r.got)
  | readFailed {i r} (hr : s.linkRead i = some r) (hf : r.CanFail) :
      Rule s (.fail (.reader i)) (s.readerFailed i r.gen)
  | wroteNew {i d conn head w} (hpc : (s.readers i).pc = .writeNew d conn head w) (hf : w.Finished) :
      Rule s (.complete (.reader i)) (s.actOnHead i d conn head)
  | released {i d count next w} (hpc : (s.readers i).pc = .release d count next w)
      (hf : w.Finished) : Rule s (.complete (.reader i)) (s.clearReleased i d count next)
  | readerWriteFailed {i d w} (hpc : (∃ conn head, (s.readers i).pc = .writeNew d conn head w) ∨
      ∃ count next, (s.readers i).pc = .release d count next w) (hf : w.CanFail) :
      Rule s (.fail (.reader i)) (s.graceClose.setReader i .done)
  | flushedServer {i gen w} (hpc : (s.readers i).pc = .flushServer gen w) (hf : w.Finished) :
      Rule s (.complete (.reader i)) ((s.clearFlushed .req w).readerFlushClient i gen)
  | flushServerFailed {i gen w} (hpc : (s.readers i).pc = .flushServer gen w) (hf : w.CanFail) :
      Rule s (.fail (.reader i)) (s.graceClose.readerFlushClient i gen)
  | flushedClient {i gen w} (hpc : (s.readers i).pc = .flushClient gen w) (hf : w.Finished) :
      Rule s (.complete (.reader i)) ((s.clearFlushed .res w).readerReconnect i gen)
  | flushClientFailed {i gen w} (hpc : (s.readers i).pc = .flushClient gen w) (hf : w.CanFail) :
      Rule s (.fail (.reader i)) (s.graceClose.readerReconnect i gen)
  -- `connect_process`
  | connected {j} (hpc : s.connectors j = .connecting true) :
      Rule s (.complete (.connector j)) (s.fourTuple2process j)
  | connectFailed {j} (hpc : s.connectors j = .connecting false) :
      Rule s (.fail (.connector j)) (s.setConnector j .waiting)
  | retry {j} (hpc : s.connectors j = .waiting) :
      Rule s (.complete (.connector j)) (s.connectLoop j)
  | wroteTuple {j conn w} (hpc : s.connectors j = .fourTuple conn w) (hf : w.Finished) :
      Rule s (.complete (.connector j)) (s.superviseProcess j conn)
  | tupleFailed {j conn w} (hpc : s.connectors j = .fourTuple conn w) (hf : w.CanFail) :
      Rule s (.fail (.connector j)) ((s.breakLink w).setConnector j .done)
  -- `detect_process_timeout`
  | timedOut {k conn} (hpc : s.detectors k = .waiting conn .fired) :
      Rule s (.complete (.detector k)) { s with
        proxyProcessSocket := .closed
        detectors := Function.update s.detectors k .done }
  | rearm {k conn} (hpc : s.detectors k = .waiting conn .cancelled) :
      Rule s (.complete (.detector k)) (s.detectLoop k conn)
  -- the kernel, the timer and the process
  | connect {j} (hpc : s.connectors j = .connecting false) (hs : s.proxyProcessSocket = .opened) :
      Rule s (.connect j) { s with
        proxyProcessSocket := .connected
        conns := s.conns + 1
        links := Function.update s.links (s.conns + 1) {}
        connectors := Function.update s.connectors j (.connecting true) }
  | expire {k conn} (hpc : s.detectors k = .waiting conn .pending) :
      Rule s (.expire k) { s with
        detectors := Function.update s.detectors k (.waiting conn .fired) }
  | respond {g r} (h0 : 0 < g) (hg : g ≤ s.conns) :
      Rule s (.respond g r) { s with links := Function.update s.links g { s.links g with
        responses := (s.links g).responses ++ [r]
        inbound := (s.links g).inbound ++ r.bytes } }

theorem rule_of_read {s s' : Session} {d : Dir} {r : ReadResult} (h : s.onRead d r = some s') :
    Rule s (.read d r) s' := by
  unfold onRead at h
  split at h
  · rename_i live hpc
    split at h
    · rename_i hr
      cases r with
      | data bytes => cases h; exact .gotDirect hpc hr
      | eof => cases h; exact .readEof (.inl hpc) hr.1
      | error => cases h; exact .readError (.inl hpc)
    · cases h
  · rename_i live hpc
    split at h
    · rename_i hr
      cases r with
      | data bytes => cases h; exact .gotProcess hpc hr
      | eof => cases h; exact .readEof (.inr hpc) hr.1
      | error => cases h; exact .readError (.inr hpc)
    · cases h
  · cases h

theorem rule_of_push {s s' : Session} {t : Tid} {k : ℕ} (h : s.onPush t k = some s') :
    Rule s (.push t k) s' := by
  unfold onPush at h
  split at h
  · rename_i d w hw
    split at h
    · rename_i hk
      cases h; exact .pushPeer hw hk.1 hk.2.1 hk.2.2.1 hk.2.2.2
    · cases h
  · split at h
    · rename_i w hw
      split at h
      · rename_i hk
        obtain ⟨hi, hg, hs, hb, h0, hk⟩ := hk
        cases h; exact .pushLink hw hi hg hs hb h0 hk
      · cases h
    · cases h

theorem rule_of_pull {s s' : Session} {i k : ℕ} (h : s.onPull i k = some s') :
    Rule s (.pull i k) s' := by
  unfold onPull at h
  split at h
  · rename_i r hr
    split at h
    · rename_i hk
      obtain ⟨hi, hg, hs, h0, hk, hin⟩ := hk
      cases h; exact .pull hr hi hg hs h0 hk hin
    · cases h
  · cases h

theorem rule_of_issue {s s' : Session} {t : Tid} (h : s.onIssue t = some s') :
    Rule s (.issue t) s' := by
  unfold onIssue at h
  split at h
  · rename_i w hw
    split at h
    · rename_i hk
      cases h; exact .issueWrite hw hk.1 hk.2
    · cases h
  · split at h
    · split at h
      · rename_i r hr
        split at h
        · rename_i hk
          cases h; exact .issueRead hr hk.1 hk.2
        · cases h
      · cases h
    · cases h

theorem rule_of_complete {s s' : Session} {t : Tid} (h : s.onComplete t = some s') :
    Rule s (.complete t) s' := by
  cases t with
  | relay d =>
    simp only [onComplete] at h
    split at h <;> try split at h
    all_goals cases h
    · exact .notified ‹_› ‹_›
    · exact .wroteDirect ‹_› ‹_›
    · exact .wroteProcess ‹_› ‹_›
    · exact .relayFlushed ‹_› ‹_›
  | reader i =>
    simp only [onComplete] at h
    split at h
    · split at h
      · split at h
        · cases h; exact .gotHead ‹_› ‹_› ‹_›
        · rename_i hb
          cases h; exact .gotHeadOnly ‹_› ‹_› (not_not.1 hb)
      · cases h
    all_goals first | contradiction | split at h
    all_goals cases h
    · exact .gotBody ‹_› ‹_›
    · exact .wroteNew ‹_› ‹_›
    · exact .released ‹_› ‹_›
    · exact .flushedServer ‹_› ‹_›
    · exact .flushedClient ‹_› ‹_›
  | connector j =>
    simp only [onComplete] at h
    split at h
    · rename_i up hpc
      cases up with
      | false => simp at h
      | true => cases h; exact .connected hpc
    · cases h; exact .retry ‹_›
    · split at h
      · cases h; exact .wroteTuple ‹_› ‹_›
      · cases h
    · cases h
  | detector k =>
    simp only [onComplete] at h
    split at h
    · cases h; exact .timedOut ‹_›
    · cases h; exact .rearm ‹_›
    · cases h

theorem rule_of_fail {s s' : Session} {t : Tid} (h : s.onFail t = some s') :
    Rule s (.fail t) s' := by
  cases t with
  | relay d =>
    simp only [onFail] at h
    split at h
    all_goals first | contradiction | split at h
    all_goals cases h
    · exact .notifyFailed ‹_› ‹_›
    · rename_i hpc _; exact .relayWriteFailed (by rw [hpc]; rfl) ‹_›
    · exact .processFailed ‹_› ‹_›
    · rename_i hpc _; exact .relayWriteFailed (by rw [hpc]; rfl) ‹_›
  | reader i =>
    simp only [onFail] at h
    split at h
    all_goals first | contradiction | split at h
    all_goals cases h
    · rename_i hpc _; exact .readFailed (by rw [linkRead, hpc]; rfl) ‹_›
    · rename_i hpc _; exact .readFailed (by rw [linkRead, hpc]; rfl) ‹_›
    · exact .readerWriteFailed (.inl ⟨_, _, ‹_›⟩) ‹_›
    · exact .readerWriteFailed (.inr ⟨_, _, ‹_›⟩) ‹_›
    · exact .flushServerFailed ‹_› ‹_›
    · exact .flushClientFailed ‹_› ‹_›
  | connector j =>
    simp only [onFail] at h
    split at h
    · rename_i up hpc
      cases up with
      | false => cases h; exact .connectFailed hpc
      | true => simp at h
    · split at h
      · cases h; exact .tupleFailed ‹_› ‹_›
      · cases h
    · cases h
  | detector k => simp [onFail] at h

/-- **Every step is a rule.** -/
theorem rule_of_step {s s' : Session} {e : Event} (h : s.step e = some s') : Rule s e s' := by
  cases e with
  | read d r => exact rule_of_read h
  | push t k => exact rule_of_push h
  | pull i k => exact rule_of_pull h
  | issue t => exact rule_of_issue h
  | complete t => exact rule_of_complete h
  | fail t => exact rule_of_fail h
  | connect j =>
    simp only [step, onConnect] at h
    split at h
    · rename_i hc
      cases h; exact .connect hc.1 hc.2
    · cases h
  | expire k =>
    simp only [step, onExpire] at h
    split at h
    · cases h; exact .expire ‹_›
    · cases h
  | respond g r =>
    simp only [step, onRespond] at h
    split at h
    · rename_i hg
      cases h; exact .respond hg.1 hg.2
    · cases h

end CppProxy
