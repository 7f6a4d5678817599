import Redisson.RedisCommand
import Mathlib.Data.List.Perm.Basic

/-! Splitting a drained batch over the nodes: slot resolution with retries, and the map
from `MasterSlaveEntry` to the commands bound for that node. -/

namespace Redisson

/-- A primary as one routing-table snapshot shows it. The hand-written `Eq` and `Hash`
compare `primary` only, so that slots of one node share an entry. -/
structure MasterSlaveEntry where
  primary : Server
  slot : Option Slot
  deriving DecidableEq, Repr

def MasterSlaveEntry.slotOrZero (mse : MasterSlaveEntry) : Slot := mse.slot.getD 0

/-- What the pool knows at one moment: the cached cluster state, absent outside cluster
mode, and the configured hosts. -/
structure Topology where
  clusterState : Option (Slot → Option Server)
  hosts : List Server

def Topology.getWriteEntry (t : Topology) (slot : Slot) : Option MasterSlaveEntry :=
  match t.clusterState with
  | some getServer => (getServer slot).map fun s => ⟨s, some slot⟩
  | none => t.hosts.head?.map fun s => ⟨s, none⟩

/-- A queued command. Each `async0` takes one index and makes one sender, so the index
also names the sender `tx` that travels with the command. -/
structure BatchCommandData where
  cmd : RedisCommand
  index : Nat

structure Entry where
  commands : List BatchCommandData
  readOnly : Bool

def Entry.new : Entry := ⟨[], true⟩

def Entry.addCommand (e : Entry) (d : BatchCommandData) : Entry :=
  ⟨e.commands ++ [d], e.readOnly && d.cmd.isReadOnly⟩

structure Group where
  mse : MasterSlaveEntry
  entry : Entry

def Group.commands (g : Group) : List BatchCommandData := g.entry.commands

/-- `node_map.entry(mse).or_insert_with(Entry::new).add_command(data)`: an entry for the
same primary keeps the key, and with it the slot, that was inserted first. -/
def addToNode : List Group → MasterSlaveEntry → BatchCommandData → List Group
  | [], mse, d => [⟨mse, Entry.new.addCommand d⟩]
  | g :: gs, mse, d =>
    if g.mse.primary = mse.primary then { g with entry := g.entry.addCommand d } :: gs
    else g :: addToNode gs mse d

section Grouping

variable (topologyAt : Nat → Topology) (keyslot : Key → Slot) (retryAttempts : Nat)

/-- The loop of `resolve_entry`; every round reads the routing table at a later moment. -/
def resolveLoop (slot : Slot) : Nat → Nat → Option MasterSlaveEntry × Nat
  | 0, now => ((topologyAt now).getWriteEntry slot, now + 1)
  | retries + 1, now =>
    match (topologyAt now).getWriteEntry slot with
    | some mse => (some mse, now + 1)
    | none => resolveLoop slot retries (now + 1)

def resolveEntry (slot : Slot) (now : Nat) : Except Error MasterSlaveEntry × Nat :=
  match resolveLoop topologyAt slot retryAttempts now with
  | (some mse, now) => (.ok mse, now)
  | (none, now) =>
    (.error ⟨"no server found for slot " ++ toString slot ++ " after " ++
      toString (retryAttempts + 1) ++ " attempts"⟩, now)

def BatchCommandData.slot (d : BatchCommandData) : Slot := (d.cmd.routingKey.map keyslot).getD 0

def groupEntries : List BatchCommandData → Nat → List Group → Except Error (List Group)
  | [], _, nodeMap => .ok nodeMap
  | d :: ds, now, nodeMap =>
    match resolveEntry topologyAt retryAttempts (d.slot keyslot) now with
    | (.ok mse, now) => groupEntries ds now (addToNode nodeMap mse d)
    | (.error e, _) => .error e

end Grouping

theorem addToNode_commands_perm (gs : List Group) (mse : MasterSlaveEntry) (d : BatchCommandData) :
    ((addToNode gs mse d).flatMap Group.commands).Perm (gs.flatMap Group.commands ++ [d]) := by
  induction gs with
  | nil => simp [addToNode, Group.commands, Entry.addCommand, Entry.new]
  | cons g gs ih =>
    by_cases h : g.mse.primary = mse.primary
    · have hp : (d :: gs.flatMap Group.commands).Perm (gs.flatMap Group.commands ++ [d]) :=
        (List.perm_append_singleton d _).symm
      simpa [addToNode, h, Group.commands, Entry.addCommand] using hp.append_left g.entry.commands
    · simpa [addToNode, h] using ih.append_left g.commands

/-- A property of groups that a fresh group has and that taking in a command for the same
primary keeps holds of the whole map after an insertion. -/
theorem forall_addToNode {P : Group → Prop} {gs : List Group} {mse : MasterSlaveEntry}
    {d : BatchCommandData} (hgs : ∀ g ∈ gs, P g) (hnew : P ⟨mse, Entry.new.addCommand d⟩)
    (hadd : ∀ g ∈ gs, P g → g.mse.primary = mse.primary →
      P { g with entry := g.entry.addCommand d }) :
    ∀ g ∈ addToNode gs mse d, P g := by
  induction gs with
  | nil => simpa [addToNode] using hnew
  | cons g gs ih =>
    have hg := hgs g (by simp)
    have ht := ih (fun x hx => hgs x (by simp [hx])) (fun x hx => hadd x (by simp [hx]))
    by_cases h : g.mse.primary = mse.primary
    · intro x hx
      simp only [addToNode, h, if_true, List.mem_cons] at hx
      rcases hx with rfl | hx
      · exact hadd g (by simp) hg h
      · exact hgs x (by simp [hx])
    · intro x hx
      simp only [addToNode, h, if_false, List.mem_cons] at hx
      rcases hx with rfl | hx
      · exact hg
      · exact ht x hx

theorem addToNode_primaries (gs : List Group) (mse : MasterSlaveEntry) (d : BatchCommandData) :
    (addToNode gs mse d).map (·.mse.primary) =
      if mse.primary ∈ gs.map (·.mse.primary) then gs.map (·.mse.primary)
      else gs.map (·.mse.primary) ++ [mse.primary] := by
  induction gs with
  | nil => simp [addToNode]
  | cons g gs ih =>
    by_cases h : g.mse.primary = mse.primary
    · simp [addToNode, h]
    · have hne : mse.primary ≠ g.mse.primary := fun he => h he.symm
      simp only [addToNode, h, if_false, List.map_cons, ih, List.mem_cons, hne, false_or]
      split <;> rfl

section GroupingResults

variable {topologyAt : Nat → Topology} {keyslot : Key → Slot} {retryAttempts : Nat}

theorem resolveLoop_some {slot : Slot} {retries now now' : Nat} {mse : MasterSlaveEntry}
    (h : resolveLoop topologyAt slot retries now = (some mse, now')) :
    ∃ t, (topologyAt t).getWriteEntry slot = some mse := by
  induction retries generalizing now with
  | zero => exact ⟨now, congrArg Prod.fst h⟩
  | succ retries ih =>
    cases ht : (topologyAt now).getWriteEntry slot with
    | none => exact ih (by simpa [resolveLoop, ht] using h)
    | some m =>
      have hm : m = mse ∧ now + 1 = now' := by simpa [resolveLoop, ht] using h
      exact ⟨now, hm.1 ▸ ht⟩

theorem resolveEntry_ok {slot : Slot} {now now' : Nat} {mse : MasterSlaveEntry}
    (h : resolveEntry topologyAt retryAttempts slot now = (.ok mse, now')) :
    ∃ t, (topologyAt t).getWriteEntry slot = some mse := by
  unfold resolveEntry at h
  cases hr : resolveLoop topologyAt slot retryAttempts now with
  | mk found n =>
    cases found with
    | none => simp [hr] at h
    | some m =>
      have hm : m = mse := by simpa [hr] using congrArg Prod.fst h
      exact resolveLoop_some (hm ▸ hr)

theorem groupEntries_induction {P : List BatchCommandData → List Group → Prop}
    (hadd : ∀ done gs d t mse, P done gs →
      (topologyAt t).getWriteEntry (d.slot keyslot) = some mse →
      P (done ++ [d]) (addToNode gs mse d))
    {ds done : List BatchCommandData} {now : Nat} {gs out : List Group} (h0 : P done gs)
    (h : groupEntries topologyAt keyslot retryAttempts ds now gs = .ok out) :
    P (done ++ ds) out := by
  induction ds generalizing now gs done with
  | nil =>
    obtain rfl : gs = out := by simpa [groupEntries] using h
    simpa using h0
  | cons d ds ih =>
    cases hr : resolveEntry topologyAt retryAttempts (d.slot keyslot) now with
    | mk found n =>
      cases found with
      | error e => simp [groupEntries, hr] at h
      | ok mse =>
        obtain ⟨t, ht⟩ := resolveEntry_ok hr
        have hh := ih (hadd done gs d t mse h0 ht) (by simpa [groupEntries, hr] using h)
        simpa using hh

theorem groupEntries_perm {ds : List BatchCommandData} {now : Nat} {out : List Group}
    (h : groupEntries topologyAt keyslot retryAttempts ds now [] = .ok out) :
    (out.flatMap Group.commands).Perm ds := by
  have hh : (out.flatMap Group.commands).Perm ([] ++ ds) := by
    refine groupEntries_induction (P := fun done gs => (gs.flatMap Group.commands).Perm done)
      ?_ (by simp) h
    intro done gs d _ mse hp _
    exact (addToNode_commands_perm gs mse d).trans (hp.append_right [d])
  simpa using hh

/-- A group has its commands in the order in which they were queued. -/
theorem groupEntries_sublist {ds : List BatchCommandData} {now : Nat} {out : List Group}
    (h : groupEntries topologyAt keyslot retryAttempts ds now [] = .ok out) :
    ∀ g ∈ out, g.commands.Sublist ds := by
  refine @groupEntries_induction topologyAt keyslot retryAttempts
    (fun done gs => ∀ g ∈ gs, g.commands.Sublist done) ?_ ds [] now [] out (by simp) h
  intro done gs d _ mse hgs _
  refine forall_addToNode (fun g hg => (hgs g hg).trans (List.sublist_append_left done [d])) ?_ ?_
  · exact List.sublist_append_right done [d]
  · exact fun g hg _ _ => (hgs g hg).append (List.Sublist.refl [d])

theorem groupEntries_primaries_nodup {ds : List BatchCommandData} {now : Nat} {out : List Group}
    (h : groupEntries topologyAt keyslot retryAttempts ds now [] = .ok out) :
    (out.map (·.mse.primary)).Nodup := by
  refine @groupEntries_induction topologyAt keyslot retryAttempts
    (fun _ gs => (gs.map (·.mse.primary)).Nodup) ?_ ds [] now [] out (by simp) h
  intro _ gs d _ mse hgs _
  rw [addToNode_primaries]
  split
  · exact hgs
  · next hmem =>
    refine List.nodup_append.mpr ⟨hgs, by simp, ?_⟩
    intro p hp p' hp' heq
    obtain rfl : p' = mse.primary := List.mem_singleton.mp hp'
    exact hmem (heq ▸ hp)

end GroupingResults

end Redisson
