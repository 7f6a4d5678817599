import Redisson.SubscriptionSystem

/-! A `psubscribe` between whose steps nothing else happens does to the maps what the sequential
`psubscribe` does, whatever its calls are answered. -/

namespace Redisson

open LabelledRuns

variable (cfg : SubscriptionConfig) (env : PubSubReplies)

def PubSubReplies.answers : PubSubConnection → Bool
  | .subscriber => env.client.isOk
  | .clusterNode n =>
    match env.node n with
    | .ok r => r.isOk
    | .error _ => false

def PubSubReplies.replyEvent (t : Nat) (c : PubSubConnection) : SubEvent :=
  if env.answers c then .deliver t c else .fail t c false

def psubscribeEvents (s : SubscriptionState) (t : Nat) (p : ChannelName)
    (ls : List PatternListener) : List SubEvent :=
  .check t p ls :: .extend t ::
    if (s.entry p).isSome then [.finish t]
    else if p.perNode cfg.mode && !env.entrySet.isOk then [.entrySetFailed t]
    else .send t :: ((cfg.carriers p).map (env.replyEvent t) ++ [.finish t])

theorem answers_clusterNode (n : Server) :
    env.answers (.clusterNode n) = true ↔ env.node n = .ok (.ok ()) := by
  unfold PubSubReplies.answers
  rcases hn : env.node n with e | e | u <;> simp [hn, Except.isOk, Except.toBool]

theorem step_reply {s : SubscriptionState} {t : Nat} {p : ChannelName}
    {ls : List PatternListener} {c : PubSubConnection} {todo : List PubSubConnection}
    {failed : Bool} (ht : s.threads t = .subscribing p ls (c :: todo) failed)
    (hc : s.connected c = true) :
    ∃ s', subStep cfg s (env.replyEvent t c) = some s' ∧ s'.maps = s.maps ∧
      s'.connected = s.connected ∧
      s'.threads t = .subscribing p ls todo (failed || !env.answers c) := by
  have hcall : (s.threads t).call c = some ⟨true, [p], .subscribing p ls todo failed,
      .subscribing p ls todo true⟩ := by
    rw [ht]
    simp [SubThread.call]
  unfold PubSubReplies.replyEvent
  cases ha : env.answers c with
  | true =>
    rw [if_pos rfl]
    simp only [subStep, hcall, hc, if_true]
    exact ⟨_, rfl, rfl, rfl, by simp [SubscriptionState.setThread]⟩
  | false =>
    rw [if_neg (by simp)]
    simp only [subStep, hcall]
    exact ⟨_, rfl, rfl, rfl, by simp [SubscriptionState.setThread]⟩

theorem run_replies {s : SubscriptionState} {t : Nat} {p : ChannelName}
    {ls : List PatternListener} {todo : List PubSubConnection} {failed : Bool}
    (ht : s.threads t = .subscribing p ls todo failed)
    (hconnected : ∀ c ∈ todo, s.connected c = true) :
    ∃ s', run (subStep cfg) s (todo.map (env.replyEvent t)) = some s' ∧ s'.maps = s.maps ∧
      s'.threads t = .subscribing p ls [] (failed || todo.any fun c => !env.answers c) := by
  induction todo generalizing s failed with
  | nil => exact ⟨s, rfl, rfl, by simpa using ht⟩
  | cons c todo ih =>
    obtain ⟨s₁, hstep, hmaps₁, hcon₁, ht₁⟩ :=
      step_reply cfg env ht (hconnected c List.mem_cons_self)
    obtain ⟨s', hrun, hmaps, ht'⟩ := ih ht₁ fun c' hc' =>
      hcon₁ ▸ hconnected c' (List.mem_cons_of_mem _ hc')
    refine ⟨s', run_cons.mpr ⟨s₁, hstep, hrun⟩, hmaps.trans hmaps₁, ?_⟩
    simpa [Bool.or_assoc] using ht'

theorem run_send {s : SubscriptionState} {t : Nat} {p : ChannelName} {ls : List PatternListener}
    (ht : s.threads t = .extended p ls)
    (hconnected : ∀ c ∈ cfg.carriers p, s.connected c = true) :
    ∃ s', run (subStep cfg) s (.send t :: ((cfg.carriers p).map (env.replyEvent t) ++ [.finish t]))
        = some s' ∧ s'.threads t = .done ∧
      s'.maps = if (cfg.carriers p).all env.answers then s.maps else s.maps.clear p.patternMap p := by
  have hsend : subStep cfg s (.send t) = some (s.setThread t
      (.subscribing p ls (cfg.carriers p) false)) := by
    simp only [subStep, ht]
  obtain ⟨s₁, hrun, hmaps, ht₁⟩ := run_replies cfg env
    (s := s.setThread t (.subscribing p ls (cfg.carriers p) false))
    (Function.update_self t _ _) hconnected
  have hmaps₁ : s₁.maps = s.maps := hmaps
  have hfailed : (false || (cfg.carriers p).any fun c => !env.answers c) =
      !(cfg.carriers p).all env.answers := by
    simp [List.all_eq_not_any_not]
  rw [hfailed] at ht₁
  obtain ⟨s', hfinish, hdone, hmaps'⟩ : ∃ s', subStep cfg s₁ (.finish t) = some s' ∧
      s'.threads t = .done ∧ s'.maps = if (cfg.carriers p).all env.answers then s.maps
        else s.maps.clear p.patternMap p := by
    cases hall : (cfg.carriers p).all env.answers with
    | true =>
      simp only [hall, Bool.not_true] at ht₁
      simp only [subStep, ht₁]
      exact ⟨_, rfl, Function.update_self t _ _, hmaps₁⟩
    | false =>
      simp only [hall, Bool.not_false] at ht₁
      simp only [subStep, ht₁]
      exact ⟨_, rfl, Function.update_self t _ _, by rw [hmaps₁]; rfl⟩
  refine ⟨s', run_cons.mpr ⟨_, hsend, ?_⟩, hdone, hmaps'⟩
  rw [run_append, hrun]
  exact run_cons.mpr ⟨s', hfinish, rfl⟩

theorem answers_of_accepts {p : ChannelName}
    (hentries : ∀ entries, env.entrySet = .ok entries → entries = cfg.nodes)
    (hset : p.perNode cfg.mode = true → env.entrySet.isOk = true) :
    (cfg.carriers p).all env.answers = true ↔ env.Accepts cfg.mode p := by
  unfold SubscriptionConfig.carriers PubSubReplies.Accepts
  by_cases hn : p.perNode cfg.mode = true
  · cases he : env.entrySet with
    | error e =>
      have hok := hset hn
      rw [he] at hok
      cases hok
    | ok entries =>
      have hnodes := hentries entries he
      subst hnodes
      simp only [if_pos hn, List.all_map, List.all_eq_true, Function.comp, answers_clusterNode]
      constructor
      · exact fun h => ⟨_, rfl, h⟩
      · rintro ⟨_, heq, h⟩
        cases heq
        exact h
  · simp only [if_neg hn, List.all_cons, List.all_nil, Bool.and_true, PubSubReplies.answers]
    cases env.client <;> simp [Except.isOk, Except.toBool]

theorem psubscribe_maps_of_answers {m : ListenerMaps} {p : ChannelName} {ls : List PatternListener}
    (hnone : m.lookup p.patternMap p = none)
    (hentries : ∀ entries, env.entrySet = .ok entries → entries = cfg.nodes)
    (hset : p.perNode cfg.mode = true → env.entrySet.isOk = true) :
    (psubscribe cfg.mode env m p ls).maps = if (cfg.carriers p).all env.answers
      then m.extend p.patternMap p ls else (m.extend p.patternMap p ls).clear p.patternMap p := by
  have hok := psubscribe_ok_iff cfg.mode env m p ls hnone
  rw [← answers_of_accepts cfg env hentries hset] at hok
  rw [psubscribe_maps cfg.mode env m p ls hnone hset]
  cases hr : (psubscribe cfg.mode env m p ls).result with
  | ok u =>
    rw [if_pos (hok.mp hr)]
    rfl
  | error e =>
    have hno : ¬ (cfg.carriers p).all env.answers = true := by
      intro hall
      cases hr.symm.trans (hok.mpr hall)
    rw [if_neg hno]
    rfl

theorem run_psubscribe {s : SubscriptionState} {t : Nat} {p : ChannelName}
    {ls : List PatternListener} (ht : s.threads t = .idle)
    (hconnected : ∀ c ∈ cfg.carriers p, s.connected c = true)
    (hentries : ∀ entries, env.entrySet = .ok entries → entries = cfg.nodes) :
    ∃ s', run (subStep cfg) s (psubscribeEvents cfg env s t p ls) = some s' ∧
      s'.threads t = .done ∧ s'.maps = (psubscribe cfg.mode env s.maps p ls).maps := by
  have hcheck : subStep cfg s (.check t p ls) =
      some (s.setThread t (.checked p ls (s.entry p).isSome)) := by
    simp only [subStep, ht]
  have hextend : subStep cfg (s.setThread t (.checked p ls (s.entry p).isSome)) (.extend t) =
      some ({ s.setThread t (.checked p ls (s.entry p).isSome) with
        maps := s.maps.extend p.patternMap p ls }.setThread t
        (if (s.entry p).isSome then .subscribing p ls [] false else .extended p ls)) := by
    simp only [subStep, SubscriptionState.setThread, Function.update_self]
  set s₂ := { s.setThread t (.checked p ls (s.entry p).isSome) with
        maps := s.maps.extend p.patternMap p ls }.setThread t
        (if (s.entry p).isSome then .subscribing p ls [] false else .extended p ls) with hs₂
  have hthread₂ : s₂.threads t =
      if (s.entry p).isSome then .subscribing p ls [] false else .extended p ls :=
    Function.update_self t _ _
  suffices hrest : ∃ s', run (subStep cfg) s₂ (if (s.entry p).isSome then [.finish t]
      else if p.perNode cfg.mode && !env.entrySet.isOk then [.entrySetFailed t]
      else .send t :: ((cfg.carriers p).map (env.replyEvent t) ++ [.finish t])) = some s' ∧
      s'.threads t = .done ∧ s'.maps = (psubscribe cfg.mode env s.maps p ls).maps by
    obtain ⟨s', hrun, hdone, hmaps⟩ := hrest
    exact ⟨s', run_cons.mpr ⟨_, hcheck, run_cons.mpr ⟨_, hextend, hrun⟩⟩, hdone, hmaps⟩
  by_cases hentry : (s.entry p).isSome
  · rw [if_pos hentry] at hthread₂ ⊢
    have hstep : subStep cfg s₂ (.finish t) = some { s₂.setThread t .done with
        owed := Function.update s₂.owed p (s₂.owed p ++ ls) } := by
      simp only [subStep, hthread₂]
    refine ⟨_, run_cons.mpr ⟨_, hstep, rfl⟩, Function.update_self t _ _, ?_⟩
    rw [psubscribe_of_entry cfg.mode env s.maps p ls hentry]
    rfl
  · have hnone : s.maps.lookup p.patternMap p = none := by simpa [SubscriptionState.entry] using hentry
    rw [if_neg hentry] at hthread₂ ⊢
    by_cases hset : (p.perNode cfg.mode && !env.entrySet.isOk) = true
    · rw [if_pos hset]
      have hpair := Bool.and_eq_true _ _ ▸ hset
      have hstep : subStep cfg s₂ (.entrySetFailed t) =
          some { s₂.setThread t .done with failed := true } := by
        simp only [subStep, hthread₂, hpair.1, if_true]
      refine ⟨_, run_cons.mpr ⟨_, hstep, rfl⟩, Function.update_self t _ _, ?_⟩
      exact (psubscribe_maps_of_no_entries cfg.mode env s.maps p ls hnone hpair.1
        (by simpa using hpair.2)).symm
    · rw [if_neg hset]
      obtain ⟨s', hrun, hdone, hmaps⟩ := run_send cfg env hthread₂ hconnected
      refine ⟨s', hrun, hdone, hmaps.trans ?_⟩
      have hset' : p.perNode cfg.mode = true → env.entrySet.isOk = true := by
        intro hn
        simpa [hn] using hset
      exact (psubscribe_maps_of_answers cfg env hnone hentries hset').symm

end Redisson
