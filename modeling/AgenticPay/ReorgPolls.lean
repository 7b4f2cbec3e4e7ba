import AgenticPay.ReorgDetector

/-!
# Polls of a chain that only grows

A poll compares the last block with the tip it knows of as if no block lay between them. In a run in
which blocks are only appended, and every poll is answered with the tip or the block after it, no
reorganisation is recorded and no confirmation is removed.
-/
namespace ReorgDetector

open Awaits Chains Records Transaction

abbrev Detector := Config State Waiting

variable (host : Host) (chains : List ChainConfig)

/-! ## Conditions -/

/-- A chain only becomes one that has grown from it. -/
def Appends (g : Detector) : Act Call Told → Prop
  | .call (.becomes network chain) _ => (g.state.chain network).Grows chain
  | .call .. => True
  | .resume .. => True

instance (g : Detector) : (act : Act Call Told) → Decidable (Appends g act)
  | .call (.becomes network chain) _ =>
    inferInstanceAs (Decidable ((g.state.chain network).Grows chain))
  | .call (.recordConfirmation ..) _ => isTrue trivial
  | .call (.startChain _) _ => isTrue trivial
  | .call (.pollChain _) _ => isTrue trivial
  | .resume .. => isTrue trivial

/-- A poll that is answered with its block has not missed one since its tip. -/
def Waiting.Follows (told : Told) : Waiting → Prop
  | .head _ latestNumber currentTip =>
    told.rejects .getBlock = false → told.missing = false →
      latestNumber ≤ currentTip.blockNumber + 1
  | _ => True

instance (told : Told) : (task : Waiting) → Decidable (task.Follows told)
  | .head _ latestNumber currentTip =>
    inferInstanceAs (Decidable (told.rejects .getBlock = false → told.missing = false →
      latestNumber ≤ currentTip.blockNumber + 1))
  | .bootNumber _ => isTrue trivial
  | .bootHead .. => isTrue trivial
  | .number _ => isTrue trivial
  | .ancestor .. => isTrue trivial
  | .payments .. => isTrue trivial
  | .persisting .. => isTrue trivial
  | .alerting _ => isTrue trivial

def Timely (g : Detector) : Act Call Told → Prop
  | .call .. => True
  | .resume i told => ∀ task ∈ g.tasks[i]?, task.Follows told

instance (g : Detector) : (act : Act Call Told) → Decidable (Timely g act)
  | .call .. => isTrue trivial
  | .resume i told => inferInstanceAs (Decidable (∀ task ∈ g.tasks[i]?, task.Follows told))

/-- The confirmations that are tracked before an act are tracked after it. -/
def Tracks (g : Detector) (act : Act Call Told) : Prop :=
  ∀ tx ∈ g.state.confirmedTxs,
    tx ∈ (commit (machine (detector host chains)) g act).state.confirmedTxs

variable {host chains} {s s' : State} {g : Detector} {act : Act Call Told} {told : Told} {c : Call}
  {network : Network} {latestNumber n : Nat} {tip : ChainTip} {block : BlockHeader}
  {tx : ConfirmedTx} {task : Waiting}

/-! ## Tips on the chain -/

def OnChain (chain : Chain String) (tip : ChainTip) : Prop :=
  ∃ block ∈ chain.getBlock tip.blockNumber, block.hash = tip.blockHash

theorem OnChain.grows {chain longer : Chain String} (h : OnChain chain tip)
    (hgrows : chain.Grows longer) : OnChain longer tip := by
  obtain ⟨block, hblock, hhash⟩ := h
  exact ⟨block, hgrows.getBlock hblock, hhash⟩

theorem tipOf_onChain {chain : Chain String} (h : chain.getBlock n = some block) :
    OnChain chain (tipOf block) := by
  have hnumber : (tipOf block).blockNumber = n := Chain.number_of_getBlock h
  exact ⟨block, hnumber ▸ h, rfl⟩

/-- The tip or the block after it shows no reorganisation. -/
theorem not_detects {chain : Chain String} (h : OnChain chain tip)
    (hblock : chain.getBlock latestNumber = some block) (hge : tip.blockNumber ≤ latestNumber)
    (hle : latestNumber ≤ tip.blockNumber + 1) : detects latestNumber tip block = false := by
  obtain ⟨old, hold, hhash⟩ := h
  rw [detects]
  split_ifs with hsame
  · rw [hsame] at hblock
    obtain rfl := Option.some.inj (hblock.symm.trans hold)
    simp [hhash]
  · obtain rfl : latestNumber = tip.blockNumber + 1 := by omega
    simp [Chain.parentHash_of_getBlock hold hblock, hhash]

structure Canonical (s : State) : Prop where
  unrecorded : s.reorgEvents = []
  tips : ∀ network, ∀ tip ∈ s.tips network, OnChain (s.chain network) tip

/-- A task polls from a tip on the chain, and none handles a reorganisation. -/
def Following (s : State) : Waiting → Prop
  | .bootNumber _ => True
  | .bootHead .. => True
  | .number _ => True
  | .head network latestNumber currentTip =>
    OnChain (s.chain network) currentTip ∧ currentTip.blockNumber ≤ latestNumber
  | .ancestor .. => False
  | .payments .. => False
  | .persisting .. => False
  | .alerting _ => False

/-! ## Quiet turns -/

/-- What a turn does that handles no reorganisation. -/
structure Quiet (s s' : State) : Prop where
  unrecorded : s'.reorgEvents = s.reorgEvents
  tracked : ∀ tx ∈ s.confirmedTxs, tx ∈ s'.confirmedTxs
  grows : ∀ network, (s.chain network).Grows (s'.chain network)
  tips : ∀ network, ∀ tip ∈ s'.tips network,
    tip ∈ s.tips network ∨ OnChain (s'.chain network) tip

theorem Quiet.refl (s : State) : Quiet s s :=
  ⟨rfl, fun _ => id, fun _ => Chain.Grows.refl _, fun _ _ => .inl⟩

theorem Quiet.canonical (h : Quiet s s') (hs : Canonical s) : Canonical s' where
  unrecorded := h.unrecorded.trans hs.unrecorded
  tips := fun network tip htip => (h.tips network tip htip).elim
    (fun hold => (hs.tips network tip hold).grows (h.grows network)) id

theorem Quiet.following (h : Quiet s s') (htask : Following s task) : Following s' task := by
  cases task with
  | head network latestNumber currentTip => exact ⟨htask.1.grows (h.grows network), htask.2⟩
  | bootNumber | bootHead | number => trivial
  | ancestor | payments | persisting | alerting => exact htask

theorem quiet_becomes {chain : Chain String} (h : (s.chain network).Grows chain) :
    Quiet s { s with chain := Function.update s.chain network chain } := by
  refine ⟨rfl, fun _ => id, fun other => ?_, fun _ _ => .inl⟩
  by_cases he : other = network
  · rw [he]
    simpa only [Function.update_self] using h
  · simpa only [Function.update_of_ne he] using Chain.Grows.refl _

theorem Quiet.setTip (h : Quiet s s') (hblock : (s'.chain network).getBlock n = some block) :
    Quiet s (s'.setTip network block) := by
  refine ⟨h.unrecorded, h.tracked, h.grows, fun other tip htip => ?_⟩
  by_cases he : other = network
  · subst he
    rw [State.setTip_tips, Function.update_self] at htip
    obtain rfl := Option.some.inj htip
    exact .inr (tipOf_onChain hblock)
  · rw [State.setTip_tips, Function.update_of_ne he] at htip
    exact h.tips other tip htip

theorem Quiet.setNetworkHead (h : Quiet s s') : Quiet s (s'.setNetworkHead host network n) :=
  ⟨h.unrecorded, h.tracked, h.grows, h.tips⟩

theorem quiet_recordConfirmation (host : Host) (told : Told) (txHash : TxHash) (network : Network)
    (n : Nat) (s : State) : Quiet s (recordConfirmation host told txHash network n s).2 := by
  rw [recordConfirmation]
  cases hget : s.confirmedTxs.get (key host txHash network) with
  | some existing => exact Quiet.refl s
  | none =>
    exact ⟨rfl, fun tx => Table.mem_set_fresh hget, fun _ => Chain.Grows.refl _, fun _ _ => .inl⟩

theorem quiet_request (h : Appends g (.call c told)) :
    Quiet g.state (request host told g.state c).2 := by
  cases c with
  | becomes network chain => exact quiet_becomes h
  | recordConfirmation txHash network n =>
    exact quiet_recordConfirmation host told txHash network n _
  | startChain network => exact ⟨rfl, fun _ => id, fun _ => Chain.Grows.refl _, fun _ _ => .inl⟩
  | pollChain network =>
    rw [request, pollChain]
    split <;> exact Quiet.refl _

theorem following_request (host : Host) (told : Told) (s : State) (c : Call) :
    ∀ task ∈ (request host told s c).1.tasks, Following (request host told s c).2 task := by
  intro task hmem
  cases c with
  | becomes => exact absurd hmem List.not_mem_nil
  | recordConfirmation txHash network n =>
    rw [request, recordConfirmation] at hmem
    split at hmem <;> exact absurd hmem List.not_mem_nil
  | startChain network =>
    obtain rfl := List.mem_singleton.mp hmem
    trivial
  | pollChain network =>
    rw [request, pollChain] at hmem
    split at hmem
    · obtain rfl := List.mem_singleton.mp hmem
      trivial
    · exact absurd hmem List.not_mem_nil

theorem getBlock_some (h : getBlock told network n s = some block) :
    told.missing = false ∧ (s.chain network).getBlock n = some block := by
  rw [getBlock] at h
  split_ifs at h with hmissing
  exact ⟨Bool.eq_false_of_not_eq_true hmissing, h⟩

theorem quiet_poll (host : Host) (h : Quiet s s') (htip : OnChain (s'.chain network) tip)
    (hblock : (s'.chain network).getBlock latestNumber = some block)
    (hge : tip.blockNumber ≤ latestNumber) (hle : latestNumber ≤ tip.blockNumber + 1) :
    Quiet s (poll host network latestNumber tip block s').2 ∧
      (poll host network latestNumber tip block s').1.tasks = [] := by
  rw [poll, if_neg (Bool.eq_false_iff.mp (not_detects htip hblock hge hle))]
  split
  · exact ⟨h, rfl⟩
  · exact ⟨h.setTip hblock, rfl⟩

theorem quiet_done (s : State) : Quiet s s ∧
    ∀ next ∈ (Turn.done .nothing : Turn Waiting Response).tasks, Following s next :=
  ⟨Quiet.refl s, fun _ hmem => absurd hmem List.not_mem_nil⟩

/-- A turn of a poll that follows its tip. -/
theorem quiet_resume (host : Host) (chains : List ChainConfig) (hs : Canonical s)
    (htask : Following s task) (hfollows : task.Follows told) :
    Quiet s (resume host chains told s task).2 ∧
      ∀ next ∈ (resume host chains told s task).1.tasks, Following s next := by
  cases task with
  | ancestor | payments | persisting | alerting => exact htask.elim
  | bootNumber network =>
    rw [resume]
    split
    · exact quiet_done s
    · refine ⟨Quiet.refl s, fun next hmem => ?_⟩
      obtain rfl := List.mem_singleton.mp hmem
      trivial
  | bootHead network number =>
    rw [resume]
    split
    · exact quiet_done s
    · split
      next => exact quiet_done s
      next block hblock =>
        exact ⟨((Quiet.refl s).setTip (getBlock_some hblock).2).setNetworkHead,
          fun next hmem => absurd hmem List.not_mem_nil⟩
  | number network =>
    rw [resume]
    split
    · exact quiet_done s
    · split
      next => exact quiet_done s
      next tip htip =>
        dsimp only
        split
        · exact quiet_done s
        next hge =>
          refine ⟨Quiet.refl s, fun next hmem => ?_⟩
          obtain rfl := List.mem_singleton.mp hmem
          exact ⟨hs.tips network tip htip, Nat.le_of_not_lt hge⟩
  | head network latestNumber currentTip =>
    rw [resume]
    split
    · exact quiet_done s
    next hanswered =>
      split
      next => exact quiet_done s
      next block hblock =>
        obtain ⟨hpresent, hblock⟩ := getBlock_some hblock
        have hle := hfollows (Bool.eq_false_of_not_eq_true hanswered) hpresent
        obtain ⟨hquiet, htasks⟩ := quiet_poll host (Quiet.refl s).setNetworkHead htask.1 hblock
          htask.2 hle
        exact ⟨hquiet, fun next hmem => absurd (htasks ▸ hmem) List.not_mem_nil⟩

theorem Quiet.leaves {turn : Turn Waiting Response} (h : Quiet g.state s') (hs : Canonical g.state)
    (htasks : ∀ task ∈ turn.tasks, Following s' task) : Leaves Canonical Following g turn s' :=
  ⟨h.canonical hs, fun _ _ => h.following, htasks⟩

theorem detector_keeps (host : Host) (chains : List ChainConfig) :
    Keeps (detector host chains) (fun g act => Appends g act ∧ Timely g act) Canonical
      Following where
  call := by
    intro g c told turn s hacts hsound hcall
    obtain ⟨rfl, rfl⟩ := Prod.mk.inj (Option.some.inj hcall)
    exact (quiet_request hacts.1).leaves hsound.state (following_request host told g.state c)
  resume := by
    intro g i told task turn s hacts hsound hwaiting hresume
    obtain ⟨hquiet, htasks⟩ := quiet_resume host chains hsound.state
      (hsound.tasks task (List.mem_of_getElem? hwaiting)) (hacts.2 task hwaiting)
    rw [show resume host chains told g.state task = (turn, s) from hresume] at hquiet htasks
    exact hquiet.leaves hsound.state fun next hnext => hquiet.following (htasks next hnext)

theorem tracks_of_sound (h : Sound Canonical Following g) (hacts : Appends g act ∧ Timely g act) :
    Tracks host chains g act := by
  intro tx htx
  obtain hmoves | hsame := commit_moves (detector host chains) g act
  · generalize commit (machine (detector host chains)) g act = g' at hmoves
    cases hmoves with
    | @called c told turn s hcall =>
      obtain ⟨-, rfl⟩ := Prod.mk.inj (Option.some.inj hcall)
      exact (quiet_request hacts.1).tracked tx htx
    | @resumed i told task turn s hwaiting hresume =>
      have hquiet := (quiet_resume host chains h.state
        (h.tasks task (List.mem_of_getElem? hwaiting)) (hacts.2 task hwaiting)).1
      rw [show resume host chains told g.state task = (turn, s) from hresume] at hquiet
      exact hquiet.tracked tx htx
  · rwa [hsame]

/-! ## Runs -/

theorem start_sound (chain : Network → Chain String) :
    Sound Canonical Following ⟨start chain, []⟩ :=
  ⟨⟨rfl, fun _ _ htip => absurd htip (Option.not_mem_none _)⟩, fun _ h => absurd h List.not_mem_nil⟩

/-- In every run in which blocks are only appended and no poll has missed one since its tip, no
reorganisation is recorded and no confirmation is removed. -/
theorem appending_run {chain : Network → Chain String} {acts : List (Act Call Told)}
    (happends : Along (machine (detector host chains)) Appends ⟨start chain, []⟩ acts)
    (htimely : Along (machine (detector host chains)) Timely ⟨start chain, []⟩ acts) :
    (run (machine (detector host chains)) ⟨start chain, []⟩ acts).state.reorgEvents = [] ∧
      Along (machine (detector host chains)) (Tracks host chains) ⟨start chain, []⟩ acts := by
  have hkeeps := detector_keeps host chains
  have hacts := happends.and htimely
  refine ⟨(sound_run hkeeps hacts (start_sound chain)).state.unrecorded, ?_⟩
  exact along_of_invariant (I := Sound Canonical Following)
    (fun g act hg hact => sound_commit hkeeps hact hg) (start_sound chain) hacts
    fun g act hg hact => tracks_of_sound hg hact

def plainHost : Host := ⟨id⟩

def answering : Told := ⟨"id", 0, fun _ => false, 0, false, []⟩

def known : Chain String := ⟨[⟨0, "a", ""⟩, ⟨1, "b", "a"⟩], by decide, by decide⟩

def grown : Chain String :=
  ⟨[⟨0, "a", ""⟩, ⟨1, "b", "a"⟩, ⟨2, "c", "b"⟩], by decide, by decide⟩

def grownTwice : Chain String :=
  ⟨[⟨0, "a", ""⟩, ⟨1, "b", "a"⟩, ⟨2, "c", "b"⟩, ⟨3, "d", "c"⟩], by decide, by decide⟩

/-- A confirmation is tracked in the last block, then blocks are appended and the chain is
polled. -/
def polled (chain : Chain String) : List (Act Call Told) :=
  [.call (.startChain "net") answering, .resume 0 answering, .resume 0 answering,
    .call (.recordConfirmation "tx" "net" 1) answering, .call (.becomes "net" chain) answering,
    .call (.pollChain "net") answering, .resume 0 answering, .resume 0 answering,
    .resume 0 answering, .resume 0 answering]

theorem polled_appending :
    (run (machine (detector plainHost [])) ⟨start fun _ => known, []⟩
        (polled grown)).state.reorgEvents = [] ∧
      Along (machine (detector plainHost [])) (Tracks plainHost []) ⟨start fun _ => known, []⟩
        (polled grown) :=
  appending_run (by decide +kernel) (by decide +kernel)

/-- Two blocks are appended between two polls: a reorganisation is recorded, and the confirmation
that was tracked before the poll is removed. -/
theorem polls_go_wrong :
    Along (machine (detector plainHost [])) Appends ⟨start fun _ => known, []⟩
        (polled grownTwice) ∧
      (run (machine (detector plainHost [])) ⟨start fun _ => known, []⟩
        (polled grownTwice)).state.reorgEvents ≠ [] ∧
      (run (machine (detector plainHost [])) ⟨start fun _ => known, []⟩
        ((polled grownTwice).take 6)).state.confirmedTxs.records ≠ [] ∧
      (run (machine (detector plainHost [])) ⟨start fun _ => known, []⟩
        (polled grownTwice)).state.confirmedTxs.records = [] := by
  decide +kernel

end ReorgDetector
