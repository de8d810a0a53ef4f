/-
  cpp_proxy — start-up, listeners and reloads (cpp_proxy.cpp).

  `main` parses the configuration, spawns a listener for each entity and then
  `handle_config_change`, and runs the io_context; the sessions run on other
  threads.

  * `write v`: somebody writes the configuration file;
  * `parse`, `listen`, `stamp`: `main` parses the file; the next listener that it
    spawned starts; `handle_config_change` takes its first `last_write_time`;
  * `poll`, `reload`: the timer expires and the times are compared; the file is
    parsed, new listeners start and old acceptors are closed, without a suspension;
  * `connect i`, `resume i`: a client completes the accept of listener `i`; the
    listener resumes;
  * `setup k`: `setup_proxy` of session `k` looks its server up.

  A listener that does not come to listen (`opens` and `fails`: its address is
  invalid, or the port cannot be bound) ends.  Port 0 is bound to a port that
  the system chooses (`ephemeral`).
-/
import Mathlib.Logic.Function.Basic
import CppProxy.Config

namespace CppProxy

/-! ## State -/

/-- A version of the file, with its write time. -/
structure Version where
  time : ℕ
  content : Option Json

/-- `tcp_acceptor`: the port and the `listen_ip` that it is bound to. -/
structure Acceptor where
  port : UInt16
  listenIp : String
  isOpen : Bool
deriving DecidableEq, Repr

/-- `listener`: its accept is pending, or has a client. -/
inductive ListenerPc
  | accepting
  | accepted
  | done
deriving DecidableEq, Repr

/-- A listener and the acceptor object it serves. -/
structure Listener where
  acceptor : ℕ
  pc : ListenerPc
deriving DecidableEq, Repr

/-- A session: the local port of its client, and what it looked up. -/
structure Accepted where
  port : UInt16
  server : Option Config.Lookup
deriving DecidableEq, Repr

/-- `handle_config_change`; the value is `last_time`. -/
inductive PollPc
  | posted
  | waiting (lastTime : ℕ)
  | changed (lastTime : ℕ)
  | ended
deriving DecidableEq, Repr

/-- The process.  `acceptors` is the map of the same name, from ports to acceptor
    objects; `times` are all write times so far. -/
structure Main where
  file : Version
  times : List ℕ
  config : Config := {}
  started : Bool := false
  posted : List ProxyEntity := []
  poll : PollPc := .posted
  acceptors : UInt16 → Option ℕ := fun _ => none
  objects : ℕ → Acceptor := fun _ => ⟨0, "", false⟩
  nObjects : ℕ := 0
  listeners : ℕ → Listener := fun _ => ⟨0, .done⟩
  nListeners : ℕ := 0
  sessions : ℕ → Accepted := fun _ => ⟨0, none⟩
  nSessions : ℕ := 0

/-- What can happen next: a version is written to the file, or a coroutine of the process
    goes on. -/
inductive MainEvent
  | write (v : Version)
  | parse
  | listen (opens : Bool) (ephemeral : UInt16)
  | stamp
  | poll
  | reload (fails : List UInt16) (ephemeral : UInt16)
  | connect (i : ℕ)
  | resume (i : ℕ)
  | setup (k : ℕ)

namespace Main

variable (s : Main)

/-- The process before `main`. -/
def init (file : Version) : Main := { file, times := [file.time] }

/-! ## Listeners -/

/-- `listener` up to its first accept. -/
def listener (e : ProxyEntity) (opens : Bool) (ephemeral : UInt16) : Main :=
  if opens then
    let port := if e.listenPort = 0 then ephemeral else e.listenPort
    { s with
      objects := Function.update s.objects s.nObjects ⟨port, e.listenIp, true⟩
      nObjects := s.nObjects + 1
      acceptors :=
        -- `emplace` keeps an acceptor that is there
        if (s.acceptors e.listenPort).isSome then s.acceptors
        else Function.update s.acceptors e.listenPort (some s.nObjects)
      listeners := Function.update s.listeners s.nListeners ⟨s.nObjects, .accepting⟩
      nListeners := s.nListeners + 1 }
  else s

/-- `it->second->close(_); acceptors.erase(it);` -/
def closeAcceptor (e : ProxyEntity) : Main :=
  match s.acceptors e.listenPort with
  | some id => { s with
      objects := Function.update s.objects id { s.objects id with isOpen := false }
      acceptors := Function.update s.acceptors e.listenPort none }
  | none => s

/-- Listener `i` goes on to `pc`. -/
def setListener (i : ℕ) (pc : ListenerPc) : Main :=
  { s with listeners := Function.update s.listeners i { s.listeners i with pc } }

@[simp] theorem setListener_acceptor (i : ℕ) (pc : ListenerPc) (j : ℕ) :
    ((s.setListener i pc).listeners j).acceptor = (s.listeners j).acceptor := by
  by_cases hj : j = i
  · subst hj
    simp [setListener]
  · simp [setListener, hj]

/-- The acceptor of a listener. -/
def acceptorOf (i : ℕ) : Acceptor := s.objects (s.listeners i).acceptor

/-- `std::make_shared<session>(...)->start()`. -/
def startSession (port : UInt16) : Main :=
  { s with
    sessions := Function.update s.sessions s.nSessions ⟨port, none⟩
    nSessions := s.nSessions + 1 }

/-! ## Reloads -/

/-- The loop over `add`. -/
def startListeners (fails : List UInt16) (ephemeral : UInt16) (add : List ProxyEntity) : Main :=
  add.foldl (fun s e => s.listener e (e.listenPort ∉ fails) ephemeral) s

/-- The loop over `del`. -/
def closeAcceptors (del : List ProxyEntity) : Main := del.foldl closeAcceptor s

/-- `handle_config_change` from `parse_conf` to the end of the round: an exception
    ends the coroutine. -/
def reload (lastTime : ℕ) (fails : List UInt16) (ephemeral : UInt16) : Main :=
  match s.config.parseConf s.file.content with
  | .ok c =>
    let s := { s with config := c, poll := .waiting lastTime }
    let s := s.startListeners fails ephemeral c.add.elems
    s.closeAcceptors c.del.elems
  | .error c => { s with config := c, poll := .ended }

/-- One step of the process; `none` where the event cannot happen. -/
def step : MainEvent → Option Main
  | .write v =>
    if v.time ∉ s.times then some { s with file := v, times := v.time :: s.times } else none
  | .parse =>
    if s.started = false then
      match s.config.parseConf s.file.content with
      | .ok c => some { s with config := c, started := true, posted := c.entities.elems }
      | .error _ => none  -- the exception leaves `main`
    else none
  | .listen opens ephemeral =>
    match s.posted with
    | e :: posted => some ({ s with posted }.listener e opens ephemeral)
    | [] => none
  | .stamp =>
    if s.started = true ∧ s.posted = [] ∧ s.poll = .posted then
      some { s with poll := .waiting s.file.time }
    else none
  | .poll =>
    match s.poll with
    | .waiting lastTime =>
      if lastTime = s.file.time then some s else some { s with poll := .changed s.file.time }
    | _ => none
  | .reload fails ephemeral =>
    match s.poll with
    | .changed lastTime => some (s.reload lastTime fails ephemeral)
    | _ => none
  | .connect i =>
    if i < s.nListeners ∧ (s.listeners i).pc = .accepting ∧ (s.acceptorOf i).isOpen then
      some (s.setListener i .accepted)
    else none
  | .resume i =>
    if i < s.nListeners then
      match (s.listeners i).pc with
      | .accepted => some ((s.setListener i .accepting).startSession (s.acceptorOf i).port)
      | .accepting => if (s.acceptorOf i).isOpen then some s else some (s.setListener i .done)
      | .done => none
    else none
  | .setup k =>
    if k < s.nSessions ∧ (s.sessions k).server = none then
      let server := s.config.getProxyServer (s.sessions k).port
      some { s with
        sessions := Function.update s.sessions k { s.sessions k with server := some server } }
    else none

end Main

/-! ## What a reload leaves alone -/

/-- All but the acceptors and the listeners. -/
structure SameRest (s s' : Main) : Prop where
  file : s'.file = s.file
  times : s'.times = s.times
  config : s'.config = s.config
  started : s'.started = s.started
  posted : s'.posted = s.posted
  poll : s'.poll = s.poll
  sessions : s'.sessions = s.sessions
  nSessions : s'.nSessions = s.nSessions

namespace SameRest

theorem refl (s : Main) : SameRest s s := ⟨rfl, rfl, rfl, rfl, rfl, rfl, rfl, rfl⟩

theorem trans {s s' s'' : Main} (h : SameRest s s') (h' : SameRest s' s'') : SameRest s s'' :=
  ⟨h'.file.trans h.file, h'.times.trans h.times, h'.config.trans h.config,
    h'.started.trans h.started, h'.posted.trans h.posted, h'.poll.trans h.poll,
    h'.sessions.trans h.sessions, h'.nSessions.trans h.nSessions⟩

theorem listener (s : Main) (e : ProxyEntity) (opens : Bool) (port : UInt16) :
    SameRest s (s.listener e opens port) := by
  unfold Main.listener
  split <;> exact ⟨rfl, rfl, rfl, rfl, rfl, rfl, rfl, rfl⟩

theorem closeAcceptor (s : Main) (e : ProxyEntity) : SameRest s (s.closeAcceptor e) := by
  unfold Main.closeAcceptor
  split <;> exact ⟨rfl, rfl, rfl, rfl, rfl, rfl, rfl, rfl⟩

theorem startListeners (fails : List UInt16) (port : UInt16) : ∀ (add : List ProxyEntity)
    (s : Main), SameRest s (s.startListeners fails port add)
  | [], s => refl s
  | e :: add, s => (listener s e _ port).trans (startListeners fails port add _)

theorem closeAcceptors : ∀ (del : List ProxyEntity) (s : Main), SameRest s (s.closeAcceptors del)
  | [], s => refl s
  | e :: del, s => (closeAcceptor s e).trans (closeAcceptors del _)

end SameRest

/-- **A round that parses the file**: the table is replaced and polling goes on, or
    the tables stay and the coroutine ends. -/
theorem reload_cases (s : Main) (lastTime : ℕ) (fails : List UInt16) (port : UInt16) :
    (∃ c, s.config.parseConf s.file.content = .ok c ∧
      SameRest { s with config := c, poll := .waiting lastTime }
        (s.reload lastTime fails port)) ∨
    ∃ c, s.config.parseConf s.file.content = .error c ∧
      s.reload lastTime fails port = { s with config := c, poll := .ended } := by
  unfold Main.reload
  cases h : s.config.parseConf s.file.content with
  | ok c =>
    exact .inl ⟨c, rfl, (SameRest.startListeners fails port _ _).trans (.closeAcceptors _ _)⟩
  | error c => exact .inr ⟨c, rfl, rfl⟩

/-! ## What a step does -/

section

variable {s s' : Main}

theorem of_write {v : Version} (h : s.step (.write v) = some s') :
    v.time ∉ s.times ∧ s' = { s with file := v, times := v.time :: s.times } := by
  simp only [Main.step, Option.ite_none_right_eq_some, Option.some.injEq] at h
  exact ⟨h.1, h.2.symm⟩

theorem of_parse (h : s.step .parse = some s') : s.started = false ∧
    ∃ c, s.config.parseConf s.file.content = .ok c ∧
      s' = { s with config := c, started := true, posted := c.entities.elems } := by
  simp only [Main.step] at h
  split at h
  · split at h <;> cases h
    rename_i hs _ c hc
    exact ⟨hs, c, hc, rfl⟩
  · cases h

theorem of_listen {opens : Bool} {port : UInt16} (h : s.step (.listen opens port) = some s') :
    ∃ e posted, s.posted = e :: posted ∧ s' = { s with posted }.listener e opens port := by
  simp only [Main.step] at h
  split at h <;> cases h
  rename_i e posted hp
  exact ⟨e, posted, hp, rfl⟩

theorem of_stamp (h : s.step .stamp = some s') : s.started = true ∧ s.posted = [] ∧
    s.poll = .posted ∧ s' = { s with poll := .waiting s.file.time } := by
  simp only [Main.step, Option.ite_none_right_eq_some, Option.some.injEq] at h
  exact ⟨h.1.1, h.1.2.1, h.1.2.2, h.2.symm⟩

theorem of_poll (h : s.step .poll = some s') : ∃ lastTime, s.poll = .waiting lastTime ∧
    (lastTime = s.file.time ∧ s' = s ∨
      lastTime ≠ s.file.time ∧ s' = { s with poll := .changed s.file.time }) := by
  simp only [Main.step] at h
  split at h
  · rename_i lastTime hp
    split at h <;> cases h
    · rename_i ht; exact ⟨lastTime, hp, .inl ⟨ht, rfl⟩⟩
    · rename_i ht; exact ⟨lastTime, hp, .inr ⟨ht, rfl⟩⟩
  · cases h

theorem of_reload {fails : List UInt16} {port : UInt16}
    (h : s.step (.reload fails port) = some s') :
    ∃ lastTime, s.poll = .changed lastTime ∧ s' = s.reload lastTime fails port := by
  simp only [Main.step] at h
  split at h <;> cases h
  rename_i lastTime hp
  exact ⟨lastTime, hp, rfl⟩

theorem of_connect {i : ℕ} (h : s.step (.connect i) = some s') : i < s.nListeners ∧
    (s.listeners i).pc = .accepting ∧ (s.acceptorOf i).isOpen ∧
      s' = s.setListener i .accepted := by
  simp only [Main.step, Option.ite_none_right_eq_some, Option.some.injEq] at h
  exact ⟨h.1.1, h.1.2.1, h.1.2.2, h.2.symm⟩

theorem of_resume {i : ℕ} (h : s.step (.resume i) = some s') : i < s.nListeners ∧
    ((s.listeners i).pc = .accepted ∧
        s' = (s.setListener i .accepting).startSession (s.acceptorOf i).port ∨
      s' = s ∨ (s.acceptorOf i).isOpen = false ∧ s' = s.setListener i .done) := by
  simp only [Main.step] at h
  split at h
  case isFalse => cases h
  case isTrue hi =>
    refine ⟨hi, ?_⟩
    split at h
    · rename_i hpc
      cases h
      exact .inl ⟨hpc, rfl⟩
    · split at h <;> cases h
      · exact .inr (.inl rfl)
      · rename_i ho
        exact .inr (.inr ⟨by simpa using ho, rfl⟩)
    · cases h

theorem of_setup {k : ℕ} (h : s.step (.setup k) = some s') : k < s.nSessions ∧
    (s.sessions k).server = none ∧
      s' = { s with
        sessions := Function.update s.sessions k { s.sessions k with
          server := some (s.config.getProxyServer (s.sessions k).port) } } := by
  simp only [Main.step, Option.ite_none_right_eq_some, Option.some.injEq] at h
  exact ⟨h.1.1, h.1.2, h.2.symm⟩

end

/-- A rule for the two loops of an accepted reload: `P` holds of the process and of
    the ports that are in the map so far. -/
theorem reload_ind {P : Main → (UInt16 → Prop) → Prop} {s : Main} {c : Config} {lastTime : ℕ}
    {fails : List UInt16} {port : UInt16} (hc : s.config.parseConf s.file.content = .ok c)
    (h₀ : P { s with config := c, poll := .waiting lastTime } s.config.entities.HasPort)
    (hadd : ∀ s' K e, P s' K → e ∈ c.entities.elems → ¬ K e.listenPort →
      P (s'.listener e (e.listenPort ∉ fails) port) fun p => p = e.listenPort ∨ K p)
    (hdel : ∀ s' K e, P s' K → ¬ c.entities.HasPort e.listenPort →
      P (s'.closeAcceptor e) fun p => K p ∧ p ≠ e.listenPort) :
    P (s.reload lastTime fails port) c.entities.HasPort := by
  obtain ⟨-, hdiff, hdiff'⟩ := parseConf_ok hc
  have hstart : ∀ (add : List ProxyEntity) (s' : Main) (K : UInt16 → Prop), P s' K →
      add.Pairwise (fun a b => a.listenPort ≠ b.listenPort) →
      (∀ e ∈ add, e ∈ c.entities.elems ∧ ¬ K e.listenPort) →
      P (s'.startListeners fails port add) fun p => (∃ e ∈ add, e.listenPort = p) ∨ K p := by
    intro add
    induction add with
    | nil => intro s' K h _ _; simpa [Main.startListeners] using h
    | cons e add ih =>
      intro s' K h hne hK
      obtain ⟨hne, hne'⟩ := List.pairwise_cons.1 hne
      have h₁ := hadd s' K e h (hK e (by simp)).1 (hK e (by simp)).2
      have h₂ := ih _ _ h₁ hne' fun e' he' => ⟨(hK e' (by simp [he'])).1, fun hp =>
        hp.elim (fun hp => hne e' he' hp.symm) (hK e' (by simp [he'])).2⟩
      refine cast (congrArg _ (funext fun p => propext ?_)) h₂
      simp only [List.mem_cons, exists_eq_or_imp, eq_comm (a := p)]
      exact or_left_comm.trans or_assoc.symm
  have hclose : ∀ (del : List ProxyEntity) (s' : Main) (K : UInt16 → Prop), P s' K →
      (∀ e ∈ del, ¬ c.entities.HasPort e.listenPort) →
      P (s'.closeAcceptors del) fun p => K p ∧ ∀ e ∈ del, p ≠ e.listenPort := by
    intro del
    induction del with
    | nil => intro s' K h _; simpa [Main.closeAcceptors] using h
    | cons e del ih =>
      intro s' K h hK
      have h₂ := ih _ _ (hdel s' K e h (hK e (by simp))) fun e' he' => hK e' (by simp [he'])
      refine cast (congrArg _ (funext fun p => propext ?_)) h₂
      simp only [List.mem_cons, forall_eq_or_imp, and_assoc]
  have hmemAdd : ∀ e ∈ c.add.elems, e ∈ c.entities.elems ∧ ¬ s.config.entities.HasPort e.listenPort
      := fun e he => KeyedSet.mem_difference.1 (hdiff' ▸ he)
  have hmemDel : ∀ e ∈ c.del.elems, ¬ c.entities.HasPort e.listenPort :=
    fun e he => (KeyedSet.mem_difference.1 (hdiff ▸ he)).2
  have h₂ := hclose _ _ _ (hstart _ _ _ h₀ (distinct_of_sorted c.add.sorted) hmemAdd) hmemDel
  simp only [Main.reload, hc]
  refine cast (congrArg _ (funext fun p => propext ?_)) h₂
  have hadd' : (∃ e ∈ c.add.elems, e.listenPort = p) ↔
      c.entities.HasPort p ∧ ¬ s.config.entities.HasPort p := by
    rw [← Entities.hasPort_iff, hdiff']
    exact KeyedSet.mem_keys_difference
  have hdel' : (∀ e ∈ c.del.elems, p ≠ e.listenPort) ↔
      ¬ (s.config.entities.HasPort p ∧ ¬ c.entities.HasPort p) := by
    rw [show s.config.entities.HasPort p ∧ ¬ c.entities.HasPort p ↔ c.del.HasPort p by
      rw [hdiff]; exact KeyedSet.mem_keys_difference.symm, Entities.hasPort_iff]
    simp only [not_exists, not_and, ne_eq, eq_comm]
  rw [hadd', hdel']
  tauto

/-! ## Start-up -/

/-- The ports of the table whose listeners have started. -/
def Main.Listened (s : Main) (p : UInt16) : Prop :=
  s.config.entities.HasPort p ∧ ∀ e ∈ s.posted, e.listenPort ≠ p

/-- The listeners that `main` has posted are entities of the table; they all start
    before the polling does, and nothing happens before the file is parsed. -/
structure Starting (s : Main) : Prop where
  posted : ∀ e ∈ s.posted, e ∈ s.config.entities.elems
  sorted : s.posted.Pairwise fun a b => a.key < b.key
  polling : s.poll ≠ .posted → s.posted = []
  unstarted : s.started = false → s.poll = .posted ∧ s.posted = [] ∧
    s.config.entities = KeyedSet.empty ∧ s.nListeners = 0 ∧ s.nSessions = 0

namespace Starting

variable {s s' : Main}

theorem init (file : Version) : Starting (Main.init file) where
  posted := by simp [Main.init]
  sorted := by simp [Main.init]
  polling _ := rfl
  unstarted _ := ⟨rfl, rfl, rfl, rfl, rfl⟩

/-- The table and the start-up do not change. -/
theorem congr (h : Starting s) (hc : s'.config.entities = s.config.entities)
    (hp : s'.posted = s.posted) (hs : s'.started = s.started)
    (hpoll : s'.poll = .posted ↔ s.poll = .posted)
    (hn : s.nListeners = 0 → s.nSessions = 0 → s'.nListeners = 0 ∧ s'.nSessions = 0) :
    Starting s' where
  posted := by rw [hp, hc]; exact h.posted
  sorted := by rw [hp]; exact h.sorted
  polling := by rw [hp, Ne, hpoll]; exact h.polling
  unstarted := by
    rw [hs, hpoll, hp, hc]
    intro hst
    obtain ⟨hpl, hpo, he, hl, hk⟩ := h.unstarted hst
    exact ⟨hpl, hpo, he, hn hl hk⟩

theorem step (h : Starting s) {e : MainEvent} (hst : s.step e = some s') : Starting s' := by
  cases e with
  | write v =>
    obtain ⟨-, rfl⟩ := of_write hst
    exact h.congr rfl rfl rfl Iff.rfl fun hl hk => ⟨hl, hk⟩
  | parse =>
    obtain ⟨hs, c, -, rfl⟩ := of_parse hst
    exact ⟨fun e he => he, c.entities.sorted, fun hp => absurd (h.unstarted hs).1 hp, by simp⟩
  | listen opens port =>
    obtain ⟨e, posted, hp, rfl⟩ := of_listen hst
    have hrest := SameRest.listener { s with posted } e opens port
    have hne : s.posted ≠ [] := by rw [hp]; simp
    have hsorted := h.sorted
    rw [hp] at hsorted
    refine ⟨fun e' he' => ?_, ?_, fun hpoll => ?_, fun hs => ?_⟩
    · rw [hrest.posted] at he'
      rw [hrest.config]
      exact h.posted e' (by rw [hp]; exact List.mem_cons_of_mem _ he')
    · rw [hrest.posted]; exact (List.pairwise_cons.1 hsorted).2
    · rw [hrest.poll] at hpoll; exact absurd (h.polling hpoll) hne
    · rw [hrest.started] at hs; exact absurd (h.unstarted hs).2.1 hne
  | stamp =>
    obtain ⟨hs, hp, -, rfl⟩ := of_stamp hst
    exact ⟨h.posted, h.sorted, fun _ => hp, fun hs' => absurd (hs.symm.trans hs') (by simp)⟩
  | poll =>
    obtain ⟨lastTime, hp, ⟨-, rfl⟩ | ⟨-, rfl⟩⟩ := of_poll hst
    · exact h
    · exact h.congr rfl rfl rfl (by simp [hp]) fun hl hk => ⟨hl, hk⟩
  | reload fails port =>
    obtain ⟨lastTime, hp, rfl⟩ := of_reload hst
    have hpoll : s.poll ≠ .posted := by rw [hp]; simp
    have hnil := h.polling hpoll
    have hstarted : s.started ≠ false := fun hs => hpoll (h.unstarted hs).1
    rcases reload_cases s lastTime fails port with ⟨c, -, hrest⟩ | ⟨c, -, heq⟩
    · have hnil' := hrest.posted.trans hnil
      exact ⟨by simp [hnil'], by simp [hnil'], fun _ => hnil',
        fun hs => absurd (hrest.started.symm.trans hs) hstarted⟩
    · rw [heq]
      exact ⟨by simp [hnil], by simp [hnil], fun _ => hnil, fun hs => absurd hs hstarted⟩
  | connect i =>
    obtain ⟨-, -, -, rfl⟩ := of_connect hst
    exact h.congr rfl rfl rfl Iff.rfl fun hl hk => ⟨hl, hk⟩
  | resume i =>
    obtain ⟨hi, ⟨-, rfl⟩ | rfl | ⟨-, rfl⟩⟩ := of_resume hst
    · exact h.congr rfl rfl rfl Iff.rfl fun hl _ => absurd hl (Nat.ne_zero_of_lt hi)
    · exact h
    · exact h.congr rfl rfl rfl Iff.rfl fun hl hk => ⟨hl, hk⟩
  | setup k =>
    obtain ⟨-, -, rfl⟩ := of_setup hst
    exact h.congr rfl rfl rfl Iff.rfl fun hl hk => ⟨hl, hk⟩

/-- The next listener of `main` adds its port, which was not there. -/
theorem listened_listen (h : Starting s) {e : ProxyEntity} {posted : List ProxyEntity}
    (hp : s.posted = e :: posted) (opens : Bool) (port : UInt16) :
    ¬ s.Listened e.listenPort ∧
      ({ s with posted }.listener e opens port).Listened =
        fun p => p = e.listenPort ∨ s.Listened p := by
  have hrest := SameRest.listener { s with posted } e opens port
  have hsorted := h.sorted
  rw [hp] at hsorted
  have hne := (List.pairwise_cons.1 (distinct_of_sorted hsorted)).1
  have hmem : s.config.entities.HasPort e.listenPort :=
    Entities.hasPort_iff.2 ⟨e, h.posted e (by simp [hp]), rfl⟩
  refine ⟨fun hl => hl.2 e (by simp [hp]) rfl, funext fun p => propext ?_⟩
  simp only [Main.Listened, hrest.config, hrest.posted, hp, List.mem_cons, forall_eq_or_imp]
  constructor
  · rintro ⟨hK, hn⟩
    by_cases hpe : p = e.listenPort
    · exact .inl hpe
    · exact .inr ⟨hK, fun h' => hpe h'.symm, hn⟩
  · rintro (rfl | ⟨hK, -, hn⟩)
    · exact ⟨hmem, fun e' he' => (hne e' he').symm⟩
    · exact ⟨hK, hn⟩

/-- No listener has started when `main` has parsed the file. -/
theorem listened_parse (h : Starting s) (hs : s.started = false) (c : Config) :
    ({ s with config := c, started := true, posted := c.entities.elems } : Main).Listened =
      s.Listened := by
  ext p
  simp only [Main.Listened, (h.unstarted hs).2.2.1, Entities.HasPort, KeyedSet.keys, KeyedSet.empty,
    List.map_nil, List.not_mem_nil, false_and, iff_false, not_and, not_forall]
  intro hp
  obtain ⟨e, he, hep⟩ := Entities.hasPort_iff.1 hp
  exact ⟨e, he, not_not.2 hep⟩

/-- Once the polling has begun the listeners of the whole table have started. -/
theorem listened_eq (hp : s.posted = []) : s.Listened = s.config.entities.HasPort := by
  ext p
  simp [Main.Listened, hp]

end Starting

end CppProxy
