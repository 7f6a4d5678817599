import Redisson.RegistryAgreement
import Redisson.BroadcastLoops

/-! The loop that restores the keyspace subscriptions of cluster nodes. It takes the reconnects
from `reconnect_rx` in a `while let Ok(server)` and spawns a task for each, so a lag, which comes
as an error, ends it; the two loops over messages go on. -/

namespace Redisson

open LabelledRuns BroadcastLoops

/-- The task spawned for the reconnect at a position. Calls run under the even names. -/
def reconnectTask (k : Nat) : Nat := 2 * k + 1

namespace SubEvent

/-- A step of the service other than its reconnect loop. -/
def ofCalls : SubEvent → Bool
  | check t .. | beginRemove t .. => t % 2 == 0
  | reconnect .. => false
  | _ => true

def thread : SubEvent → Option Nat
  | check t .. | extend t | send t | entrySetFailed t | deliver t _ | fail t .. | finish t
  | beginRemove t .. | retain t | erase t | fetchEntries t | reconnect t _ | scan t _ | endScan t =>
    some t
  | disconnect _ => none

end SubEvent

/-- A reconnect is broadcast as the connection comes back. -/
def reconnectLoop (cfg : SubscriptionConfig) (capacity : Nat) :
    Loop SubscriptionState SubEvent Server Unit where
  capacity := capacity
  stopsOnLag := true
  step w e := if e.ofCalls then subStep cfg w e else none
  send w _ n :=
    if cfg.mode = .cluster ∧ w.connected (.clusterNode n) = false then
      some { w with connected := Function.update w.connected (.clusterNode n) true }
    else none
  body w k n := (w.setThread (reconnectTask k) (.scanning n [] []), ())

theorem reconnectLoop_step {cfg : SubscriptionConfig} {capacity : Nat} {w w' : SubscriptionState}
    {e : SubEvent} (h : (reconnectLoop cfg capacity).step w e = some w') :
    e.ofCalls = true ∧ SubStep cfg w e w' := by
  obtain ⟨hcalls, hstep⟩ : e.ofCalls = true ∧ subStep cfg w e = some w' := by
    simpa [reconnectLoop] using h
  exact ⟨hcalls, SubStep.of_step hstep⟩

theorem reconnectLoop_send {cfg : SubscriptionConfig} {capacity k : Nat} {w w' : SubscriptionState}
    {n : Server} (h : (reconnectLoop cfg capacity).send w k n = some w') :
    (cfg.mode = .cluster ∧ w.connected (.clusterNode n) = false) ∧
      { w with connected := Function.update w.connected (.clusterNode n) true } = w' := by
  simpa [reconnectLoop] using h

abbrev ReconnectState := BroadcastLoops.State SubscriptionState Server Unit

namespace SubscriptionState

variable {cfg : SubscriptionConfig} {s s' : SubscriptionState} {e : SubEvent}

theorem threads_of_step (h : SubStep cfg s e s') {t : Nat} (ht : e.thread ≠ some t) :
    s'.threads t = s.threads t := by
  have hne : ∀ {i : Nat} {x : SubThread}, e.thread = some i →
      Function.update s.threads i x t = s.threads t := by
    rintro i x hi
    refine Function.update_of_ne ?_ _ _
    rintro rfl
    exact ht hi
  cases h with
  | disconnect hm => rfl
  | _ => exact hne rfl

/-- Calls begin under even names, and nothing else moves an idle thread. -/
theorem even_of_idle (h : SubStep cfg s e s') (he : e.ofCalls = true) {t : Nat}
    (ht : e.thread = some t) (hidle : s.threads t = .idle) : t % 2 = 0 := by
  have hbusy : ∀ {i : Nat} {x : SubThread}, some i = some t → s.threads i = x → x ≠ .idle →
      t % 2 = 0 := by
    rintro i x hi hx hne
    cases hi
    exact absurd (hx.symm.trans hidle) hne
  have hcalling : ∀ {i : Nat} {c : PubSubConnection} {w : WireCall}, some i = some t →
      (s.threads i).call c = some w → t % 2 = 0 := by
    rintro i c w hi hw
    cases hi
    rw [hidle] at hw
    cases hw
  cases h with
  | check | beginRemove =>
    cases ht
    simpa [SubEvent.ofCalls] using he
  | reconnect => cases he
  | disconnect => cases ht
  | deliver hw | fail hw => exact hcalling ht hw
  | extend hw | send hw | subscribeWithoutEntries hw | removeWithoutEntries hw | finish hw
  | finishFailed hw | finishRemove hw | retainAbsent hw | retain hw | erase hw | fetchEntries hw
  | scan hw | endScan hw => exact hbusy ht hw nofun

/-- The same state with other threads under some names. -/
def overlay (s : SubscriptionState) (o : Nat → Option SubThread) : SubscriptionState :=
  { s with threads := fun t => (o t).getD (s.threads t) }

theorem overlay_threads {o : Nat → Option SubThread} {t : Nat} (ht : o t = none) :
    (s.overlay o).threads t = s.threads t := by
  simp [overlay, ht]

theorem overlay_update {o : Nat → Option SubThread} {t : Nat} (ht : o t = none) (x : SubThread) :
    (fun i => (o i).getD (Function.update s.threads t x i)) =
      Function.update (s.overlay o).threads t x := by
  funext i
  by_cases hi : i = t
  · subst hi
    simp [ht]
  · simp [hi, overlay]

theorem overlay_step (h : SubStep cfg s e s') {o : Nat → Option SubThread}
    (ho : ∀ t, e.thread = some t → o t = none) : SubStep cfg (s.overlay o) e (s'.overlay o) := by
  have hthread : ∀ {t : Nat} {x : SubThread}, e.thread = some t → s.threads t = x →
      (s.overlay o).threads t = x := fun hi ht => (overlay_threads (ho _ hi)).trans ht
  have hcall : ∀ {t : Nat} {c : PubSubConnection} {w : WireCall}, e.thread = some t →
      (s.threads t).call c = some w → ((s.overlay o).threads t).call c = some w := by
    intro t c w hi hw
    rw [overlay_threads (ho t hi)]
    exact hw
  have hstep : ∀ {t : Nat} {x : SubThread}, e.thread = some t →
      s'.threads = Function.update s.threads t x →
      SubStep cfg (s.overlay o) e
        { s' with threads := Function.update (s.overlay o).threads t x } →
      SubStep cfg (s.overlay o) e (s'.overlay o) := by
    intro t x hi hthreads h
    rw [← overlay_update (ho t hi), ← hthreads] at h
    exact h
  cases h with
  | check ht => exact hstep rfl rfl (.check (hthread rfl ht))
  | extend ht => exact hstep rfl rfl (.extend (hthread rfl ht))
  | send ht => exact hstep rfl rfl (.send (hthread rfl ht))
  | subscribeWithoutEntries ht hp =>
    exact hstep rfl rfl (.subscribeWithoutEntries (hthread rfl ht) hp)
  | removeWithoutEntries ht => exact hstep rfl rfl (.removeWithoutEntries (hthread rfl ht))
  | deliver ht hc => exact hstep rfl rfl (.deliver (hcall rfl ht) hc)
  | fail ht => exact hstep rfl rfl (.fail (hcall rfl ht))
  | finish ht => exact hstep rfl rfl (.finish (hthread rfl ht))
  | finishFailed ht => exact hstep rfl rfl (.finishFailed (hthread rfl ht))
  | finishRemove ht => exact hstep rfl rfl (.finishRemove (hthread rfl ht))
  | beginRemove ht => exact hstep rfl rfl (.beginRemove (hthread rfl ht))
  | retainAbsent ht he => exact hstep rfl rfl (.retainAbsent (hthread rfl ht) he)
  | retain ht he => exact hstep rfl rfl (.retain (hthread rfl ht) he)
  | erase ht => exact hstep rfl rfl (.erase (hthread rfl ht))
  | fetchEntries ht => exact hstep rfl rfl (.fetchEntries (hthread rfl ht))
  | disconnect hm => exact .disconnect hm
  | reconnect ht hm hc => exact hstep rfl rfl (.reconnect (hthread rfl ht) hm hc)
  | scan ht hp => exact hstep rfl rfl (.scan (hthread rfl ht) hp)
  | endScan ht hk => exact hstep rfl rfl (.endScan (hthread rfl ht) hk)

end SubscriptionState

open SubscriptionState

namespace ReconnectState

variable {cfg : SubscriptionConfig} {capacity : Nat} {s s' : ReconnectState}
  {e : Event SubEvent Server}

/-- The task of a reconnect that the loop has not taken yet, or never will. -/
def task (s : ReconnectState) (t : Nat) : Option SubThread :=
  if t % 2 = 1 then (s.waiting (t / 2)).map fun n => .scanning n [] [] else none

/-- The service as if the task of each reconnect had been spawned with it. -/
def spawned (s : ReconnectState) : SubscriptionState := s.world.overlay s.task

/-- The tasks of the reconnects still waiting have not begun. -/
structure Named (s : ReconnectState) : Prop where
  numbered : s.Numbered
  idle : ∀ k, s.handled k = false → s.world.threads (reconnectTask k) = .idle

theorem task_reconnectTask (s : ReconnectState) (k : Nat) :
    s.task (reconnectTask k) = (s.waiting k).map fun n => .scanning n [] [] := by
  have hodd : (2 * k + 1) % 2 = 1 := by omega
  have hhalf : (2 * k + 1) / 2 = k := by omega
  unfold task reconnectTask
  rw [if_pos hodd, hhalf]

theorem eq_reconnectTask {t : Nat} (h : t % 2 = 1) : t = reconnectTask (t / 2) := by
  unfold reconnectTask
  omega

/-- The tasks change with one reconnect only. -/
theorem task_update {k : Nat} {o : Option Server}
    (h : ∀ j, s'.waiting j = if j = k then o else s.waiting j) (t : Nat) :
    s'.task t = if t = reconnectTask k then o.map fun n => .scanning n [] [] else s.task t := by
  by_cases ht : t = reconnectTask k
  · rw [if_pos ht, ht, task_reconnectTask, h, if_pos rfl]
  · rw [if_neg ht]
    unfold task
    split
    · next hodd =>
      have hne : t / 2 ≠ k := fun hk => ht (hk ▸ eq_reconnectTask hodd)
      rw [h, if_neg hne]
    · rfl

def new : ReconnectState := State.new SubscriptionState.new

theorem named_new : new.Named := ⟨State.numbered_new _, fun _ _ => rfl⟩

theorem handled_of_isSome_task {t : Nat} (h : s.task t ≠ none) :
    t % 2 = 1 ∧ s.handled (t / 2) = false := by
  unfold task at h
  split at h
  · next hodd =>
    refine ⟨hodd, ?_⟩
    unfold State.waiting at h
    split at h
    · exact absurd rfl h
    · next hw => exact Bool.eq_false_iff.mpr hw
  · exact absurd rfl h

/-- A call's step is a step of the service with all tasks spawned. -/
theorem spawned_other (hs : s.Named) {e : SubEvent} {w : SubscriptionState}
    (he : e.ofCalls = true) (h : SubStep cfg s.world e w) :
    SubStep cfg s.spawned e (w.overlay s.task) := by
  refine overlay_step h fun t ht => ?_
  by_contra hsome
  obtain ⟨hodd, hwaiting⟩ := handled_of_isSome_task hsome
  have hidle := hs.idle _ hwaiting
  rw [← eq_reconnectTask hodd] at hidle
  have := even_of_idle h he ht hidle
  omega

theorem spawned_send (hs : s.Named) {n : Server} (hm : cfg.mode = .cluster)
    (hc : s.world.connected (.clusterNode n) = false) :
    SubStep cfg s.spawned (.reconnect (reconnectTask s.sent.length) n)
      (ReconnectState.spawned { s with
        world := { s.world with
          connected := Function.update s.world.connected (.clusterNode n) true }
        sent := s.sent ++ [n] }) := by
  have hfresh : s.handled s.sent.length = false :=
    State.handled_eq_false fun x hx => Nat.ne_of_lt (hs.numbered.below x hx)
  have hnone : s.task (reconnectTask s.sent.length) = none := by
    rw [task_reconnectTask, State.waiting_of_length_le (Nat.le_refl _)]
    rfl
  have hidle : s.spawned.threads (reconnectTask s.sent.length) = .idle :=
    (overlay_threads hnone).trans (hs.idle _ hfresh)
  have hstep := SubStep.reconnect hidle hm hc
  have hthreads : Function.update s.spawned.threads (reconnectTask s.sent.length)
      (.scanning n [] []) = (ReconnectState.spawned { s with
        world := { s.world with
          connected := Function.update s.world.connected (.clusterNode n) true }
        sent := s.sent ++ [n] }).threads := by
    funext t
    have htask := task_update (State.waiting_send hs.numbered { s.world with
      connected := Function.update s.world.connected (.clusterNode n) true } n) t
    show _ = (ReconnectState.task _ t).getD (s.world.threads t)
    rw [htask]
    by_cases ht : t = reconnectTask s.sent.length
    · simp [ht]
    · simp [ht, spawned, overlay]
  unfold setThread at hstep
  rw [hthreads] at hstep
  exact hstep

theorem spawned_receive (hs : s.Named) {next : Nat} {n : Server} (hp : s.phase = .listening next)
    (ha : s.sent[next]? = some n) : ReconnectState.spawned
      (s.receive next ((reconnectLoop cfg capacity).body s.world next n)) = s.spawned := by
  have hwaiting := State.waiting_next hs.numbered hp ha
  have hthreads : (ReconnectState.spawned
      (s.receive next ((reconnectLoop cfg capacity).body s.world next n))).threads =
        s.spawned.threads := by
    funext t
    have htask := task_update (State.waiting_receive s next
      ((reconnectLoop cfg capacity).body s.world next n)) t
    show (ReconnectState.task _ t).getD (Function.update s.world.threads (reconnectTask next)
      (.scanning n [] []) t) = (s.task t).getD (s.world.threads t)
    rw [htask]
    by_cases ht : t = reconnectTask next
    · simp [ht, task_reconnectTask, hwaiting]
    · simp [ht]
  unfold spawned overlay at hthreads ⊢
  rw [SubscriptionState.mk.injEq]
  exact ⟨rfl, rfl, rfl, hthreads, rfl, rfl⟩

/-- The steps of a service that spawns each task at once. -/
def Steps : Event SubEvent Server → List SubEvent → Prop
  | .other x, es => es = [x]
  | .send n, es => ∃ t, es = [.reconnect t n]
  | _, es => es = []

/-- A step of the service with its reconnect loop is a step of the service that spawns the task
of each reconnect at once, or none at all. -/
theorem spawned_step (hs : s.Named) (h : Step (reconnectLoop cfg capacity) s e s') :
    (∃ x, Steps e [x] ∧ SubStep cfg s.spawned x (ReconnectState.spawned s')) ∨
      Steps e [] ∧ ReconnectState.spawned s' = s.spawned := by
  cases h with
  | @other x w hw =>
    obtain ⟨hcalls, hsub⟩ := reconnectLoop_step hw
    exact .inl ⟨x, rfl, spawned_other hs hcalls hsub⟩
  | @send n w hopen hw =>
    obtain ⟨⟨hm, hc⟩, rfl⟩ := reconnectLoop_send hw
    exact .inl ⟨.reconnect (reconnectTask s.sent.length) n, ⟨_, rfl⟩, spawned_send hs hm hc⟩
  | receive hp hroom ha => exact .inr ⟨rfl, spawned_receive hs hp ha⟩
  | @lag next hp hlag =>
    refine .inr ⟨rfl, ?_⟩
    have htask : ReconnectState.task (s.lag true next (s.sent.length - capacity - next)) =
        s.task := by
      funext t
      unfold task
      rw [State.waiting_lag]
    unfold spawned
    exact congrArg s.world.overlay htask
  | _ => exact .inr ⟨rfl, rfl⟩

theorem reconnectTask_injective {j k : Nat} (h : reconnectTask j = reconnectTask k) : j = k := by
  unfold reconnectTask at h
  omega

theorem named_step (hs : s.Named) (h : Step (reconnectLoop cfg capacity) s e s') :
    ReconnectState.Named s' where
  numbered := State.numbered_step hs.numbered h
  idle k hk := by
    cases h with
    | @other x w hw =>
      obtain ⟨hcalls, hstep⟩ := reconnectLoop_step hw
      have hidle := hs.idle k hk
      have hthread : x.thread ≠ some (reconnectTask k) := by
        intro hx
        have := even_of_idle hstep hcalls hx hidle
        unfold reconnectTask at this
        omega
      exact (threads_of_step hstep hthread).trans hidle
    | @send n w hopen hw =>
      obtain ⟨-, rfl⟩ := reconnectLoop_send hw
      exact hs.idle k hk
    | @receive next n hp hroom ha =>
      rw [State.handled_receive] at hk
      obtain ⟨hhandled, hne⟩ : s.handled k = false ∧ next ≠ k := by simpa using hk
      have htask : reconnectTask k ≠ reconnectTask next := fun h =>
        hne (reconnectTask_injective h).symm
      exact (Function.update_of_ne htask _ _).trans (hs.idle k hhandled)
    | lag hp hlag =>
      rw [State.handled_lag] at hk
      exact hs.idle k hk
    | _ => exact hs.idle k hk

/-- The calls are orderly next to the tasks still to be spawned. -/
def Orderly (cfg : SubscriptionConfig) (s : ReconnectState) : Event SubEvent Server → Prop
  | .other x => SubscriptionState.Orderly cfg s.spawned x
  | _ => True

theorem orderly_of_steps {x : SubEvent} (h : Orderly cfg s e) (hx : Steps e [x]) :
    SubscriptionState.Orderly cfg s.spawned x := by
  cases e with
  | other y =>
    cases List.singleton_inj.mp (hx : [x] = [y])
    exact h
  | send n =>
    obtain ⟨t, ht⟩ := hx
    cases List.singleton_inj.mp ht
    trivial
  | _ => cases (hx : [x] = [])

theorem spawned_of_waiting (h : ∀ k, s.waiting k = none) : s.spawned = s.world := by
  have htask : ∀ t, s.task t = none := by
    intro t
    unfold task
    split
    · rw [h]
      rfl
    · rfl
  unfold spawned overlay
  simp [htask]

theorem spawned_new : new.spawned = SubscriptionState.new :=
  spawned_of_waiting fun k => State.waiting_of_length_le (Nat.zero_le k)

/-- What is admitted of the service with its loop is a run of the service that spawns each task
at once, in which all is admitted that was. -/
theorem spawned_run {ok : ReconnectState → Event SubEvent Server → Prop}
    (ok' : SubscriptionState → SubEvent → Prop) {es : List (Event SubEvent Server)}
    (hok : ∀ (m : ReconnectState) e x, ok m e → Steps e [x] → ok' m.spawned x)
    (h : GuardedRun (step (reconnectLoop cfg capacity)) ok new es s) :
    ∃ ess, List.Forall₂ Steps es ess ∧
      GuardedRun (subStep cfg) ok' SubscriptionState.new ess.flatten s.spawned := by
  have hsimulates : ∀ (m : ReconnectState) e m' w, m.Named ∧ m.spawned = w → ok m e →
      step (reconnectLoop cfg capacity) m e = some m' →
        ∃ es' w', Steps e es' ∧ GuardedRun (subStep cfg) ok' w es' w' ∧
          ReconnectState.Named m' ∧ ReconnectState.spawned m' = w' := by
    rintro m e m' w ⟨hm, rfl⟩ he hstep
    have hnamed := named_step hm (Step.of_step hstep)
    rcases spawned_step hm (Step.of_step hstep) with ⟨x, hx, hsub⟩ | ⟨hnone, hsame⟩
    · exact ⟨[x], _, hx, ⟨hok m e x he hx, _, hsub.to_step, rfl⟩, hnamed, rfl⟩
    · exact ⟨[], _, hnone, rfl, hnamed, hsame⟩
  obtain ⟨ess, w, hsteps, hrun, -, rfl⟩ :=
    h.simulates hsimulates ⟨named_new, spawned_new⟩
  exact ⟨ess, hsteps, hrun⟩

/-- A loop that is there before the first reconnect and never falls more than the capacity of the
channel behind has left nothing out when it has caught up. -/
theorem spawned_of_inTime {es : List (Event SubEvent Server)}
    (h : GuardedRun (step (reconnectLoop cfg capacity)) (BroadcastLoops.InTime capacity) new es s)
    (hcaught : s.phase = .listening s.sent.length) : s.spawned = s.world := by
  have hs : s.UpToDate capacity := h.invariant
    (fun _ _ _ hs he hstep => State.upToDate_step hs he (Step.of_step hstep))
    (State.upToDate_new _ _)
  refine spawned_of_waiting fun k => ?_
  by_cases hk : k < s.sent.length
  · exact hs.passed _ hcaught k hk
  · exact State.waiting_of_length_le (Nat.le_of_not_lt hk)

/-- The reconnect loop refines a service that spawns the task of each reconnect at once: with
the tasks of the reconnects still waiting, its state is one that such a service comes to by the
same steps. -/
theorem refines_spawning {es : List (Event SubEvent Server)}
    (h : run (step (reconnectLoop cfg capacity)) new es = some s) :
    (∃ ess, List.Forall₂ Steps es ess ∧
      run (subStep cfg) SubscriptionState.new ess.flatten = some s.spawned) ∧
    (GuardedRun (step (reconnectLoop cfg capacity)) (BroadcastLoops.InTime capacity) new es s →
      s.phase = .listening s.sent.length → s.spawned = s.world) := by
  have hrun := guardedRun_of_forall (P := fun _ => True) (fun _ _ => trivial) h
  obtain ⟨ess, hsteps, hrun⟩ := spawned_run (fun _ _ => True) (fun _ _ _ _ _ => trivial) hrun
  exact ⟨⟨ess, hsteps, hrun.run_eq⟩, spawned_of_inTime⟩

/-- In every run of orderly steps whose loop is there before the first reconnect and never falls
more than the capacity of the channel behind, the maps and Redis agree whenever the loop has
caught up and no call or task is in flight. -/
theorem agrees_inTime {es : List (Event SubEvent Server)}
    (h : GuardedRun (step (reconnectLoop cfg capacity))
      (fun s e => Orderly cfg s e ∧ BroadcastLoops.InTime capacity s e) new es s)
    (hcaught : s.phase = .listening s.sent.length) (hq : s.world.Quiescent) :
    s.world.Agrees cfg := by
  obtain ⟨ess, -, hrun⟩ := spawned_run (SubscriptionState.Orderly cfg)
    (fun _ _ _ he hx => orderly_of_steps he.1 hx) h
  rw [spawned_of_inTime (h.mono fun _ _ he => he.2) hcaught] at hrun
  exact agrees_of_orderly hrun hq

/-! One pattern of a standalone server, two listeners, and the removal of the first. The second
`psubscribe` runs between the `retain` and the `remove` of `remove_listener`. -/

def racingRun : List SubEvent :=
  subscribeFirst ++ [.beginRemove 2 [newsPattern] [1], .retain 2,
    .check 4 newsPattern [secondListener], .extend 4, .finish 4,
    .erase 2, .deliver 2 .subscriber, .fetchEntries 2]

theorem psubscribe_lost_by_remove : ∃ s,
    run (step (reconnectLoop standalone 16)) new (.start :: racingRun.map .other) = some s ∧
      s.phase = .listening s.sent.length ∧ s.world.Quiescent ∧ s.world.failed = false ∧
      secondListener ∈ s.world.owed newsPattern ∧ s.world.listeners newsPattern = [] ∧
      ¬ s.world.Agrees standalone := by
  refine ⟨_, rfl, rfl, ?_, rfl, List.mem_singleton_self _, rfl, fun h => ?_⟩
  · intro t
    match t with
    | 0 => trivial
    | 1 => trivial
    | 2 => trivial
    | 3 => trivial
    | 4 => trivial
    | t + 5 => trivial
  · have hl := h.kept newsPattern secondListener (List.mem_singleton_self _)
    cases hl

/-! One node, one pattern, and its connection breaking. -/

def onlyNode : Server := ⟨"127.0.0.1", 7000⟩

def onlyNodeCluster : SubscriptionConfig := ⟨.cluster, [onlyNode]⟩

def deletedPattern : ChannelName := ⟨"__keyevent@0__:del"⟩

def deletedListener : PatternListener := ⟨1, "__keyevent@0__:del"⟩

def subscribeDeleted : List (Event SubEvent Server) :=
  [.start, .other (.check 0 deletedPattern [deletedListener]), .other (.extend 0),
    .other (.send 0), .other (.deliver 0 (.clusterNode onlyNode)), .other (.finish 0)]

def breakAndReturn : List (Event SubEvent Server) := [.other (.disconnect onlyNode), .send onlyNode]

def restoreDeleted : List (Event SubEvent Server) :=
  [.poll, .other (.scan 1 deletedPattern), .other (.endScan 1),
    .other (.deliver 1 (.clusterNode onlyNode))]

theorem orderly_subscribe {t : Nat} {c : PubSubConnection} {p : ChannelName} {x y : SubThread}
    (hcall : (s.spawned.threads t).call c = some ⟨true, [p], x, y⟩)
    (hp : (s.spawned.entry p).isSome) : Orderly cfg s (.other (.deliver t c)) := by
  intro w hw q hq
  rw [hcall] at hw
  cases hw
  cases List.mem_singleton.mp hq
  exact .inl hp

theorem agrees_inTime_onlyNode : ∃ s, run (step (reconnectLoop onlyNodeCluster 1)) new
    (subscribeDeleted ++ breakAndReturn ++ restoreDeleted) = some s ∧
      s.world.Agrees onlyNodeCluster := by
  have h : ∃ s, GuardedRun (step (reconnectLoop onlyNodeCluster 1))
      (fun s e => Orderly onlyNodeCluster s e ∧ BroadcastLoops.InTime 1 s e) new
        (subscribeDeleted ++ breakAndReturn ++ restoreDeleted) s ∧
      s.phase = .listening s.sent.length ∧ s.world.Quiescent := by
    refine ⟨_, ⟨⟨trivial, trivial⟩, _, rfl, ⟨trivial, trivial⟩, _, rfl, ⟨?_, trivial⟩, _, rfl,
      ⟨trivial, trivial⟩, _, rfl, ⟨?_, trivial⟩, _, rfl, ⟨?_, trivial⟩, _, rfl,
      ⟨trivial, trivial⟩, _, rfl, ⟨trivial, 0, rfl, Nat.zero_lt_one⟩, _, rfl,
      ⟨trivial, trivial⟩, _, rfl, ⟨trivial, trivial⟩, _, rfl, ⟨trivial, trivial⟩, _, rfl,
      ⟨?_, trivial⟩, _, rfl, rfl⟩, rfl, ?_⟩
    · intro p ls already hx
      cases (hx : SubThread.checked deletedPattern [deletedListener] false = .checked p ls already)
      exact ⟨by simp, nofun⟩
    · exact orderly_subscribe (p := deletedPattern) rfl rfl
    · intro p ls hx
      cases (hx : SubThread.subscribing deletedPattern [deletedListener] [] false =
        .subscribing p ls [] true)
    · exact orderly_subscribe (p := deletedPattern) rfl rfl
    · intro t
      match t with
      | 0 => trivial
      | 1 => trivial
      | t + 2 => trivial
  obtain ⟨s, hrun, hcaught, hq⟩ := h
  exact ⟨s, hrun.run_eq, agrees_inTime hrun hcaught hq⟩

def breakAndTake : List (Event SubEvent Server) :=
  subscribeDeleted ++ breakAndReturn ++ [.poll]

theorem inTime_breakAndTake : ∃ s, GuardedRun (step (reconnectLoop onlyNodeCluster 1))
    (BroadcastLoops.InTime 1)
    new breakAndTake s ∧ s.phase = .listening s.sent.length :=
  ⟨_, ⟨trivial, _, rfl, trivial, _, rfl, trivial, _, rfl, trivial, _, rfl, trivial, _, rfl,
    trivial, _, rfl, trivial, _, rfl, ⟨0, rfl, Nat.zero_lt_one⟩, _, rfl, trivial, _, rfl, rfl⟩, rfl⟩

theorem refines_spawning_onlyNode : ∃ s : ReconnectState,
    run (step (reconnectLoop onlyNodeCluster 1)) new breakAndTake = some s ∧
      (∃ ess, List.Forall₂ Steps breakAndTake ess ∧
        run (subStep onlyNodeCluster) SubscriptionState.new ess.flatten =
          some (ReconnectState.spawned s)) ∧
      ReconnectState.spawned s = s.world := by
  obtain ⟨s, hrun, hcaught⟩ := inTime_breakAndTake
  have hrefines := refines_spawning hrun.run_eq
  exact ⟨s, hrun.run_eq, hrefines.1, hrefines.2 hrun hcaught⟩

/-! Once the loop has ended. -/

/-- The pattern has its entry, the node has lost it, and no call is about to subscribe it. -/
structure Lost (cfg : SubscriptionConfig) (n : Server) (q : ChannelName)
    (w : SubscriptionState) : Prop where
  entry : (w.entry q).isSome
  subscribed : w.subscribed (.clusterNode n) q = false
  owed : ¬ w.PendingSubscribe cfg (.clusterNode n) q
  unchecked : ∀ t ls, w.threads t ≠ .checked q ls false

theorem owes_of_next {x : SubThread} {c c' : PubSubConnection} {w : WireCall} {q : ChannelName}
    (h : x.call c = some w)
    (ho : w.next.OwesSubscribe cfg c' q ∨ w.onError.OwesSubscribe cfg c' q) :
    x.OwesSubscribe cfg c' q := by
  rcases SubThread.call_cases h with ⟨p, ls, todo, failed, rfl, -, rfl⟩ |
    ⟨ids, normal, keyspace, rfl, -, rfl⟩ | ⟨keyspace, nodes, n, rfl, -, rfl⟩ |
    ⟨n, patterns, rfl, -, rfl⟩
  · rcases ho with ⟨hq, hc⟩ | ⟨hq, hc⟩ <;> exact ⟨hq, List.mem_of_mem_erase hc⟩
  all_goals rcases ho with ho | ho <;> exact ho.elim

theorem owes_of_subscribe {x : SubThread} {c : PubSubConnection} {w : WireCall} {q : ChannelName}
    (h : x.call c = some w) (hw : w.subscribe = true) (hq : q ∈ w.patterns) :
    x.OwesSubscribe cfg c q := by
  rcases SubThread.call_cases h with ⟨p, ls, todo, failed, rfl, hc, rfl⟩ |
    ⟨ids, normal, keyspace, rfl, -, rfl⟩ | ⟨keyspace, nodes, n, rfl, -, rfl⟩ |
    ⟨n, patterns, rfl, rfl, rfl⟩
  · exact ⟨List.mem_singleton.mp hq, hc⟩
  · cases hw
  · cases hw
  · exact ⟨rfl, hq⟩

theorem next_ne_checked {x : SubThread} {c : PubSubConnection} {w : WireCall} {q : ChannelName}
    {ls : List PatternListener} {already : Bool} (h : x.call c = some w) :
    w.next ≠ .checked q ls already ∧ w.onError ≠ .checked q ls already := by
  rcases SubThread.call_cases h with ⟨p, ls, todo, failed, rfl, -, rfl⟩ |
    ⟨ids, normal, keyspace, rfl, -, rfl⟩ | ⟨keyspace, nodes, n, rfl, -, rfl⟩ |
    ⟨n, patterns, rfl, -, rfl⟩ <;> exact ⟨nofun, nofun⟩

theorem perform_lost {n : Server} {q : ChannelName} {w : SubscriptionState}
    (hw : Lost cfg n q w) {t : Nat} {c : PubSubConnection} {call : WireCall}
    (ht : (w.threads t).call c = some call) : w.perform c call (.clusterNode n) q = false := by
  unfold perform
  split
  · next hcq =>
    obtain ⟨rfl, hq⟩ := hcq
    cases hcall : call.subscribe with
    | false => rfl
    | true => exact absurd ⟨t, owes_of_subscribe ht hcall hq⟩ hw.owed
  · exact hw.subscribed

/-- A thread moves on, owes nothing more and has not just found the pattern without an entry. -/
theorem lost_of_thread {n : Server} {q : ChannelName} {w w' : SubscriptionState} {t : Nat}
    {x : SubThread} (hw : Lost cfg n q w) (hentry : (w'.entry q).isSome)
    (hsubscribed : w'.subscribed (.clusterNode n) q = false)
    (hthreads : w'.threads = Function.update w.threads t x)
    (hx : x.OwesSubscribe cfg (.clusterNode n) q →
      (w.threads t).OwesSubscribe cfg (.clusterNode n) q)
    (hchecked : ∀ ls, x ≠ .checked q ls false) : Lost cfg n q w' where
  entry := hentry
  subscribed := hsubscribed
  owed := by
    rintro ⟨i, hi⟩
    rw [hthreads] at hi
    by_cases hit : i = t
    · subst hit
      exact hw.owed ⟨i, hx (by simpa using hi)⟩
    · exact hw.owed ⟨i, by simpa [hit] using hi⟩
  unchecked i ls hi := by
    rw [hthreads] at hi
    by_cases hit : i = t
    · subst hit
      exact hchecked ls (by simpa using hi)
    · exact hw.unchecked i ls (by simpa [hit] using hi)

/-- No `remove_listener` takes the entry of the pattern out. -/
def KeepsEntry (q : ChannelName) (w : SubscriptionState) : SubEvent → Prop
  | .erase t => ∀ ids p todo normal keyspace,
      w.threads t = .emptied ids p todo normal keyspace → p ≠ q
  | _ => True

theorem entry_of_put {q p : ChannelName} {w w' : SubscriptionState}
    {o : Option (List PatternListener)} (hmaps : w'.maps = w.maps.put p.patternMap p o)
    (hq : (w.entry q).isSome) (ho : q = p → o.isSome) : (w'.entry q).isSome := by
  rw [entry_put hmaps]
  split
  · next h => exact ho h
  · exact hq

theorem lost_step {n : Server} {q : ChannelName} {w w' : SubscriptionState} {x : SubEvent}
    (hw : Lost cfg n q w) (hcalls : x.ofCalls = true) (hkeep : KeepsEntry q w x)
    (h : SubStep cfg w x w') : Lost cfg n q w' := by
  have howed : ∀ t, ¬ (w.threads t).OwesSubscribe cfg (.clusterNode n) q := fun t ht =>
    hw.owed ⟨t, ht⟩
  have hmap : ∀ {p : ChannelName} (f : List PatternListener → List PatternListener), q = p →
      ((w.maps.lookup p.patternMap p).map f).isSome := by
    rintro p f rfl
    rw [Option.isSome_map]
    exact hw.entry
  cases h with
  | @check t p ls ht =>
    refine lost_of_thread hw hw.entry hw.subscribed rfl False.elim fun ls' heq => ?_
    obtain ⟨rfl, -, hnone⟩ := SubThread.checked.inj heq
    exact absurd hw.entry (by simp [hnone])
  | @extend t p ls already ht =>
    have hput : ∀ q, q = p → (some ((w.maps.lookup p.patternMap p).getD [] ++ ls)).isSome :=
      fun _ _ => rfl
    refine lost_of_thread hw (entry_of_put rfl hw.entry (hput q)) hw.subscribed rfl
      (fun ho => ?_) (fun ls' => by split <;> nofun)
    cases already with
    | true => cases ho.2
    | false => exact absurd (ho.1 ▸ ht) (hw.unchecked t ls)
  | @send t p ls ht =>
    refine lost_of_thread hw hw.entry hw.subscribed rfl (fun ho => ?_) nofun
    rw [ht]
    exact ho
  | subscribeWithoutEntries | removeWithoutEntries | finish | finishRemove | beginRemove
  | retainAbsent => exact lost_of_thread hw hw.entry hw.subscribed rfl False.elim nofun
  | @deliver t c call ht hc =>
    exact lost_of_thread hw hw.entry (perform_lost hw ht) rfl
      (fun ho => owes_of_next ht (.inl ho)) fun ls => (next_ne_checked ht).1
  | @fail t c performed call ht =>
    refine lost_of_thread hw hw.entry ?_ rfl (fun ho => owes_of_next ht (.inr ho))
      fun ls => (next_ne_checked ht).2
    cases performed with
    | true => exact perform_lost hw ht
    | false => exact hw.subscribed
  | finishFailed ht =>
    exact lost_of_thread hw (entry_of_put rfl hw.entry (hmap _)) hw.subscribed rfl False.elim nofun
  | retain ht he =>
    refine lost_of_thread hw (entry_of_put rfl hw.entry (hmap _)) hw.subscribed rfl
      (fun ho => ?_) (fun ls' => by split <;> nofun)
    split at ho <;> exact ho.elim
  | @erase t ids p todo normal keyspace ht =>
    have hput : q = p → (none : Option (List PatternListener)).isSome := fun hq =>
      absurd hq.symm (hkeep _ _ _ _ _ ht)
    refine lost_of_thread hw (entry_of_put rfl hw.entry hput) hw.subscribed rfl
      (fun ho => ?_) (fun ls' => by split <;> nofun)
    split at ho <;> exact ho.elim
  | fetchEntries ht =>
    refine lost_of_thread hw hw.entry hw.subscribed rfl (fun ho => ?_)
      (fun ls' => by split <;> nofun)
    split at ho <;> exact ho.elim
  | disconnect hm =>
    refine ⟨hw.entry, ?_, hw.owed, hw.unchecked⟩
    show (_ && w.subscribed (.clusterNode n) q) = false
    rw [hw.subscribed, Bool.and_false]
  | reconnect => cases hcalls
  | @scan t p m seen patterns ht hp =>
    refine lost_of_thread hw hw.entry hw.subscribed rfl (fun ho => ?_) nofun
    rw [ht]
    refine ⟨ho.1, ?_⟩
    rcases ho.2 with hq | hq
    · exact .inl fun hseen => hq (List.mem_cons_of_mem p hseen)
    · split at hq
      · rcases List.mem_append.mp hq with hq | hq
        · exact .inr hq
        · exact .inl (List.mem_singleton.mp hq ▸ hp)
      · exact .inr hq
  | @endScan t m seen patterns ht hk =>
    refine lost_of_thread hw hw.entry hw.subscribed rfl (fun ho => ?_)
      (fun ls' => by split <;> nofun)
    rw [ht]
    split at ho
    · exact ho.elim
    · exact ⟨ho.1, .inr ho.2⟩

theorem lost_of_ended {n : Server} {q : ChannelName} (hs : s.phase = .ended ∧ Lost cfg n q s.world)
    (hkeep : ∀ x, e = .other x → KeepsEntry q s.world x)
    (h : step (reconnectLoop cfg capacity) s e = some s') :
    s'.phase = .ended ∧ Lost cfg n q s'.world := by
  obtain ⟨hended, hw⟩ := hs
  obtain ⟨hphase, hsame | ⟨x, rfl, hx⟩ | ⟨m, rfl, hm⟩⟩ := ended_step hended (Step.of_step h)
  · exact ⟨hphase, hsame ▸ hw⟩
  · obtain ⟨hcalls, hsub⟩ := reconnectLoop_step hx
    exact ⟨hphase, lost_step hw hcalls (hkeep x rfl) hsub⟩
  · obtain ⟨-, hworld⟩ := reconnectLoop_send hm
    exact ⟨hphase, hworld ▸ ⟨hw.entry, hw.subscribed, hw.owed, hw.unchecked⟩⟩

/-- Once the loop has lagged, the patterns of a connection that breaks stay unsubscribed on its
node for as long as they stay registered, whatever calls and reconnects follow. -/
theorem never_resubscribed {es₀ es : List (Event SubEvent Server)} {s₀ s₁ : ReconnectState}
    {n : Server} {q : ChannelName} {k : Nat}
    (hreach : run (step (reconnectLoop cfg capacity)) new es₀ = some s₀)
    (hlag : (k, .missed) ∈ s₀.log) (hq : (s₀.world.entry q).isSome)
    (hfree : ¬ s₀.world.PendingSubscribe cfg (.clusterNode n) q)
    (hunchecked : ∀ t ls, s₀.world.threads t ≠ .checked q ls false)
    (hbreak : step (reconnectLoop cfg capacity) s₀ (.other (.disconnect n)) = some s₁)
    (hrun : GuardedRun (step (reconnectLoop cfg capacity))
      (fun m e => ∀ x, e = .other x → KeepsEntry q m.world x) s₁ es s) :
    (s.world.entry q).isSome ∧ s.world.subscribed (.clusterNode n) q = false := by
  have hended : s₀.phase = .ended := ended_of_missed rfl hreach hlag
  have hbroken : s₁.phase = .ended ∧ Lost cfg n q s₁.world := by
    obtain ⟨hphase, -⟩ := ended_step hended (Step.of_step hbreak)
    refine ⟨hphase, ?_⟩
    cases Step.of_step hbreak with
    | other hw =>
      obtain ⟨-, hsub⟩ := reconnectLoop_step hw
      cases hsub with
      | disconnect hm => exact ⟨hq, by simp, hfree, hunchecked⟩
  have hstep : ∀ (m : ReconnectState) e m', m.phase = .ended ∧ Lost cfg n q m.world →
      (∀ x, e = .other x → KeepsEntry q m.world x) →
      step (reconnectLoop cfg capacity) m e = some m' → m'.phase = .ended ∧ Lost cfg n q m'.world :=
    fun _ _ _ hs hkeep h => lost_of_ended hs hkeep h
  obtain ⟨-, hlost⟩ := hrun.invariant hstep hbroken
  exact ⟨hlost.entry, hlost.subscribed⟩

/-- Two reconnects before the loop looks again are one too many for a channel of one. -/
theorem lagged_onlyNode : ∃ s, run (step (reconnectLoop onlyNodeCluster 1)) new
    (subscribeDeleted ++ breakAndReturn ++ breakAndReturn ++ [.poll]) = some s ∧
      (0, .missed) ∈ s.log ∧ (s.world.entry deletedPattern).isSome ∧
      s.world.connected (.clusterNode onlyNode) = true ∧ s.closed = false ∧
      ∀ t, s.world.threads t = .idle ∨ s.world.threads t = .done := by
  refine ⟨_, rfl, List.mem_singleton_self _, rfl, rfl, rfl, fun t => ?_⟩
  match t with
  | 0 => exact .inr rfl
  | t + 1 => exact .inl rfl

theorem never_resubscribed_onlyNode : ∃ s s', run (step (reconnectLoop onlyNodeCluster 1)) new
      (subscribeDeleted ++ breakAndReturn ++ breakAndReturn ++ [.poll]) = some s ∧
    run (step (reconnectLoop onlyNodeCluster 1)) s breakAndReturn = some s' ∧
    s'.world.connected (.clusterNode onlyNode) = true ∧
      (s'.world.entry deletedPattern).isSome ∧
      s'.world.subscribed (.clusterNode onlyNode) deletedPattern = false := by
  obtain ⟨s, hreach, hlog, hq, -, hopen, hthreads⟩ := lagged_onlyNode
  have hdown : Function.update s.world.connected (.clusterNode onlyNode) false
      (.clusterNode onlyNode) = false := Function.update_self ..
  have hbreak : ∃ s₁, step (reconnectLoop onlyNodeCluster 1) s (.other (.disconnect onlyNode)) =
      some s₁ ∧ s₁.closed = false ∧ s₁.world.connected (.clusterNode onlyNode) = false :=
    ⟨_, rfl, hopen, hdown⟩
  obtain ⟨s₁, hstep, hopen₁, hbroken⟩ := hbreak
  have hreturn : ∃ s', step (reconnectLoop onlyNodeCluster 1) s₁ (.send onlyNode) = some s' ∧
      s'.world.connected (.clusterNode onlyNode) = true := by
    have hup : Function.update s₁.world.connected (.clusterNode onlyNode) true
        (.clusterNode onlyNode) = true := Function.update_self ..
    refine ⟨{ s₁ with
      world := { s₁.world with
        connected := Function.update s₁.world.connected (.clusterNode onlyNode) true }
      sent := s₁.sent ++ [onlyNode] }, ?_, hup⟩
    simp [step, hopen₁, reconnectLoop, hbroken, onlyNodeCluster]
  obtain ⟨s', hsend, hconnected⟩ := hreturn
  have hidle : ∀ t, ¬ (s.world.threads t).OwesSubscribe onlyNodeCluster (.clusterNode onlyNode)
      deletedPattern ∧ ∀ ls, s.world.threads t ≠ .checked deletedPattern ls false := by
    intro t
    constructor
    · rcases hthreads t with h | h <;> rw [h] <;> exact id
    · rintro ls hchecked
      rcases hthreads t with h | h <;> rw [h] at hchecked <;> cases hchecked
  have hfree : ¬ s.world.PendingSubscribe onlyNodeCluster (.clusterNode onlyNode) deletedPattern := by
    rintro ⟨t, ht⟩
    exact (hidle t).1 ht
  have hkept : GuardedRun (step (reconnectLoop onlyNodeCluster 1)) (fun (m : ReconnectState) e =>
      ∀ x, e = .other x → KeepsEntry deletedPattern m.world x) s₁ [.send onlyNode] s' := by
    refine ⟨?_, s', hsend, rfl⟩
    rintro x hx
    cases hx
  have hlost := never_resubscribed hreach hlog hq hfree (fun t => (hidle t).2) hstep hkept
  have hrun : run (step (reconnectLoop onlyNodeCluster 1)) s breakAndReturn = some s' :=
    run_cons.mpr ⟨s₁, hstep, run_cons.mpr ⟨s', hsend, rfl⟩⟩
  exact ⟨s, s', hreach, hrun, hconnected, hlost⟩

end ReconnectState

end Redisson
