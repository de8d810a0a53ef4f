/-
  cpp_proxy — updates of the configuration (cpp_proxy.cpp).

  `main` parses the file, and `handle_config_change` takes the write time of the
  file when it starts, some time later.  From then on the file is parsed whenever
  its write time has changed.

  * `Main.AppliesUpdates`: the polling goes on, and after each round the table is
    that of the file, or that of before when the file is malformed;
  * `Main.Parses`: each round that parses finds a valid file, and the file has not
    got another table between the first parse and the first write time;
  * `InForce`: the table is that of the file, when `last_time` is its write time;
  * `appliesUpdates_of_parses`: under this condition no update is lost.
-/
import CppProxy.Lib.Runs
import CppProxy.Main

namespace CppProxy

open Runs

/-! ## The condition -/

/-- The steps of a polling round. -/
def MainEvent.IsRound : MainEvent → Prop
  | .poll | .reload _ _ => True
  | _ => False

/-- The polling goes on; a round that ends leaves the table of a valid file in
    force, and leaves the table alone when the file is malformed. -/
def Main.AppliesUpdates (s : Main) : Prop :=
  s.poll ≠ .ended ∧ ∀ e s', e.IsRound → s.step e = some s' →
    (∃ lastTime, s'.poll = .waiting lastTime) →
      s'.config.entities = (table s.file.content).getD s.config.entities

/-- A file that is parsed in a round is valid, and the file has the table of the
    first parse, if it has one, when its write time is first taken. -/
def Main.Parses (s : Main) : MainEvent → Prop
  | .reload _ _ => (table s.file.content).isSome
  | .stamp => ∀ entities ∈ table s.file.content, s.config.entities = entities
  | _ => True

instance Main.decidableParses (s : Main) : ∀ e, Decidable (s.Parses e)
  | .reload _ _ => inferInstanceAs (Decidable (_ = _))
  | .stamp => inferInstanceAs (Decidable (∀ _ ∈ _, _))
  | .write _ | .parse | .listen _ _ | .poll | .connect _ | .resume _ | .setup _ =>
    inferInstanceAs (Decidable True)

/-! ## Runs -/

/-- `last_time` is the time of some version; when it is that of the file, the table
    in force is that of the file. -/
structure InForce (s : Main) : Prop where
  running : s.poll ≠ .ended
  times : s.file.time ∈ s.times
  seen : ∀ lastTime, s.poll = .waiting lastTime ∨ s.poll = .changed lastTime → lastTime ∈ s.times
  table : s.poll = .waiting s.file.time →
    ∀ entities ∈ table s.file.content, s.config.entities = entities

namespace InForce

variable {s s' : Main}

theorem init (file : Version) : InForce (Main.init file) where
  running := by simp [Main.init]
  times := by simp [Main.init]
  seen t ht := by rcases ht with ht | ht <;> cases ht
  table := by simp [Main.init]

/-- The file, the table and the polling do not change. -/
theorem congr (h : InForce s) (hf : s'.file = s.file) (ht : s'.times = s.times)
    (hc : s'.config = s.config) (hp : s'.poll = s.poll) : InForce s' where
  running := by rw [hp]; exact h.running
  times := by rw [hf, ht]; exact h.times
  seen := by rw [hp, ht]; exact h.seen
  table := by rw [hp, hf, hc]; exact h.table

/-- **An accepted reload** puts the table of the file in force. -/
theorem reload (h : InForce s) {lastTime : ℕ} (hp : s.poll = .changed lastTime) {c : Config}
    (hc : s.config.parseConf s.file.content = .ok c)
    (hrest : SameRest { s with config := c, poll := .waiting lastTime } s') : InForce s' where
  running := by rw [hrest.poll]; simp
  times := by rw [hrest.file, hrest.times]; exact h.times
  seen t ht := by
    rw [hrest.times]
    rw [hrest.poll] at ht
    rcases ht with ht | ht <;> cases ht
    exact h.seen lastTime (.inr hp)
  table _ entities ht := by
    rw [hrest.file, (parseConf_ok hc).1] at ht
    rw [hrest.config]
    exact Option.some.inj ht

theorem step (hs : Starting s) (h : InForce s) {e : MainEvent} (hC : s.Parses e)
    (hst : s.step e = some s') : InForce s' := by
  cases e with
  | write v =>
    obtain ⟨hnew, rfl⟩ := of_write hst
    refine ⟨h.running, by simp, fun t ht => List.mem_cons_of_mem _ (h.seen t ht), fun hp => ?_⟩
    -- `last_time` is the time of an earlier version
    exact absurd (h.seen v.time (.inl hp)) hnew
  | parse =>
    obtain ⟨hstart, c, -, rfl⟩ := of_parse hst
    have hp : s.poll = .posted := (hs.unstarted hstart).1
    exact ⟨h.running, h.times, h.seen, fun hw => absurd (hp.symm.trans hw) (by simp)⟩
  | listen opens port =>
    obtain ⟨e, posted, -, rfl⟩ := of_listen hst
    have hrest := SameRest.listener { s with posted } e opens port
    exact h.congr hrest.file hrest.times hrest.config hrest.poll
  | stamp =>
    obtain ⟨-, -, -, rfl⟩ := of_stamp hst
    refine ⟨by simp, h.times, fun t ht => ?_, fun _ => hC⟩
    rcases ht with ht | ht <;> cases ht
    exact h.times
  | poll =>
    obtain ⟨lastTime, -, ⟨-, rfl⟩ | ⟨-, rfl⟩⟩ := of_poll hst
    · exact h
    · refine ⟨by simp, h.times, fun t ht => ?_, by simp⟩
      rcases ht with ht | ht <;> cases ht
      exact h.times
  | reload fails port =>
    obtain ⟨lastTime, hp, rfl⟩ := of_reload hst
    rcases reload_cases s lastTime fails port with ⟨c, hc, hrest⟩ | ⟨c, hc, -⟩
    · exact h.reload hp hc hrest
    · have hvalid : (CppProxy.table s.file.content).isSome := hC
      rw [(parseConf_error hc).1] at hvalid
      cases hvalid
  | connect i =>
    obtain ⟨-, -, -, rfl⟩ := of_connect hst
    exact h.congr rfl rfl rfl rfl
  | resume i =>
    obtain ⟨-, ⟨-, rfl⟩ | rfl | ⟨-, rfl⟩⟩ := of_resume hst
    · exact h.congr rfl rfl rfl rfl
    · exact h
    · exact h.congr rfl rfl rfl rfl
  | setup k =>
    obtain ⟨-, -, rfl⟩ := of_setup hst
    exact h.congr rfl rfl rfl rfl

end InForce

/-! ## No update is lost -/

/-- **Every round applies the file** while the files that are parsed are valid and
    the first write time is that of the table in force. -/
theorem appliesUpdates_of_parses {file : Version} {s : Main}
    (h : Reach Main.step Main.Parses (Main.init file) s) : s.AppliesUpdates := by
  obtain ⟨-, hin⟩ := h.inv (I := fun s => Starting s ∧ InForce s)
    ⟨Starting.init file, InForce.init file⟩
    fun _ _ _ hs hC he => ⟨hs.1.step he, hs.2.step hs.1 hC he⟩
  refine ⟨hin.running, fun e s' he hst hwait => ?_⟩
  cases e with
  | poll =>
    obtain ⟨lastTime, hp, ⟨rfl, rfl⟩ | ⟨-, rfl⟩⟩ := of_poll hst
    · cases ht : table s'.file.content with
      | none => rfl
      | some entities => exact hin.table hp entities ht
    · obtain ⟨t, ht⟩ := hwait
      cases ht
  | reload fails port =>
    obtain ⟨lastTime, -, rfl⟩ := of_reload hst
    rcases reload_cases s lastTime fails port with ⟨c, hc, hrest⟩ | ⟨c, hc, heq⟩
    · rw [hrest.config, (parseConf_ok hc).1]
      rfl
    · obtain ⟨t, ht⟩ := hwait
      rw [heq] at ht
      cases ht
  | write | parse | listen | stamp | connect | resume | setup => exact he.elim

/-- Two versions are written before the first of them is parsed, and a malformed one
    is there and gone between two rounds. -/
theorem appliesUpdates_edited : ∃ s, Reach Main.step Main.Parses
    (Main.init ⟨0, fileOf oneServer [80]⟩) s ∧ s.AppliesUpdates ∧
      s.config.entities.HasPort 83 ∧ s.times.length = 5 := by
  obtain ⟨s, hs, hp⟩ := exists_runIf Main.step Main.Parses (Main.init ⟨0, fileOf oneServer [80]⟩)
    [.parse, .listen true 0, .stamp, .write ⟨1, fileOf oneServer [81]⟩, .poll,
      .write ⟨2, fileOf oneServer [82]⟩, .reload [] 0, .poll, .reload [] 0,
      .write ⟨3, none⟩, .write ⟨4, fileOf oneServer [83]⟩, .poll, .reload [] 0]
    (fun s => decide (s.config.entities.HasPort 83) && decide (s.times.length = 5))
    (by decide +kernel)
  simp only [Bool.and_eq_true, decide_eq_true_eq] at hp
  exact ⟨s, hs, appliesUpdates_of_parses hs, hp.1, hp.2⟩

/-- **An update may be lost**: a malformed version ends the polling, and the valid one
    after it is not applied; or a version is written between the first parse and the
    first write time, and the rounds find nothing changed. -/
theorem not_appliesUpdates :
    (∃ s, Reach Main.step (fun _ _ => True) (Main.init ⟨0, fileOf oneServer [80]⟩) s ∧
      s.config.entities.HasPort 80 ∧ (table s.file.content).map KeyedSet.keys = some [81] ∧
      ¬ s.AppliesUpdates) ∧
    ∃ s, Reach Main.step (fun _ _ => True) (Main.init ⟨0, fileOf oneServer [80]⟩) s ∧
      s.poll = .waiting 1 ∧ s.step .poll = some s ∧ ¬ s.AppliesUpdates := by
  constructor
  · obtain ⟨s, hs, hp⟩ := exists_run Main.step (fun _ _ => True)
      (Main.init ⟨0, fileOf oneServer [80]⟩)
      [.parse, .listen true 0, .stamp, .write ⟨1, none⟩, .poll, .reload [] 0,
        .write ⟨2, fileOf oneServer [81]⟩]
      (fun s => decide (s.config.entities.HasPort 80) &&
        decide ((table s.file.content).map KeyedSet.keys = some [81]) &&
        decide (s.poll = .ended)) (fun _ _ _ => trivial) (by decide +kernel)
    simp only [Bool.and_eq_true, decide_eq_true_eq] at hp
    exact ⟨s, hs, hp.1.1, hp.1.2, fun ha => ha.1 hp.2⟩
  · obtain ⟨s, hs, hp⟩ := exists_run Main.step (fun _ _ => True)
      (Main.init ⟨0, fileOf oneServer [80]⟩)
      [.parse, .listen true 0, .write ⟨1, fileOf oneServer [81]⟩, .stamp]
      (fun s => decide (s.poll = .waiting 1) && decide (s.file.time = 1) &&
        decide (s.config.entities.keys = [80]) &&
        decide ((table s.file.content).map KeyedSet.keys = some [81]))
      (fun _ _ _ => trivial) (by decide +kernel)
    simp only [Bool.and_eq_true, decide_eq_true_eq, Option.map_eq_some_iff] at hp
    obtain ⟨⟨⟨hpoll, htime⟩, hkeys⟩, entities, ht, hkeys'⟩ := hp
    have hst : s.step .poll = some s := by simp [Main.step, hpoll, htime]
    refine ⟨s, hs, hpoll, hst, fun ha => ?_⟩
    have he := ha.2 .poll s trivial hst ⟨1, hpoll⟩
    rw [ht, Option.getD_some] at he
    rw [he, hkeys'] at hkeys
    cases hkeys

end CppProxy
