import AgenticPay.ReorgPolls

/-!
# The range of a reorganisation

The search for the common ancestor stops at the first block it is given, which it does not compare
with any it has known. What is reported is the old tip alone, so a reorganisation that a poll
detects is reported as it was when it goes no deeper than that tip.
-/
namespace ReorgDetector

open Awaits Chains Records Transaction

variable (host : Host) (chains : List ChainConfig)

/-- The old chain, whose tip is known, has become the new one, which the next poll detects. -/
structure Reorganised (g : Detector) (network : Network) (old new : Chain String)
    (ancestor : Nat) : Prop where
  provider : g.state.providers network = true
  tip : g.state.tips network = some (tipOf old.head)
  chain : g.state.chain network = new
  common : Chain.LastCommon old new ancestor
  orphaned : ancestor < old.height
  height : old.height ≤ new.height
  detects : detects new.height (tipOf old.head) new.head = true

/-- The provider answers, the number of the last block as it is. -/
structure Told.Provides (told : Told) : Prop where
  number : told.rejects .getBlockNumber = false
  block : told.rejects .getBlock = false
  current : told.behind = 0
  present : told.missing = false

def IsOrphaned (network : Network) (ancestor tipNumber : Nat) (tx : ConfirmedTx) : Prop :=
  tx.network = host.toLowerCase network ∧ ancestor < tx.confirmedAtBlock ∧
    tx.confirmedAtBlock ≤ tipNumber

/-- The blocks after the ancestor, up to the tip, are reported with the confirmations in them, and
these confirmations are removed, and no others. -/
structure Reports (network : Network) (ancestor tipNumber : Nat) (s s' : State) : Prop where
  recorded : ∃ event rows, s'.reorgEvents = s.reorgEvents ++ [event] ∧
    s'.transactionReorgs = s.transactionReorgs ++ rows ∧
    event.network = network ∧ event.fromBlockNumber = ancestor + 1 ∧
    event.toBlockNumber = tipNumber ∧
    ∀ hash block, (∃ row ∈ rows, row.reorgEventId = event.id ∧ row.network = network ∧
        row.payment.txHash = hash ∧ row.payment.originalBlock = some block) ↔
      ∃ tx ∈ s.confirmedTxs, IsOrphaned host network ancestor tipNumber tx ∧ tx.txHash = hash ∧
        tx.confirmedAtBlock = block
  removed : ∀ tx, tx ∈ s'.confirmedTxs ↔
    tx ∈ s.confirmedTxs ∧ ¬ IsOrphaned host network ancestor tipNumber tx

/-- One poll, while all other tasks wait. -/
def pollAlone (network : Network) (told : Told) (waiting : Nat) : List (Act Call Told) :=
  .call (.pollChain network) told :: List.replicate 6 (.resume waiting told)

variable {host chains} {s s' : State} {g : Detector} {network : Network} {told : Told}
  {h : Handling} {fromBlock toBlock a ancestor : Nat} {old new : Chain String} {t : Confirmations}
  {tx : ConfirmedTx} {hashes : List TxHash} {affected : List ConfirmedTx}

/-! ## The confirmations that are affected -/

theorem mem_findAffected : tx ∈ findAffected host network fromBlock toBlock t ↔
    tx ∈ t ∧ tx.network = host.toLowerCase network ∧ fromBlock ≤ tx.confirmedAtBlock ∧
      tx.confirmedAtBlock ≤ toBlock := by
  simp only [findAffected, List.mem_filter, Bool.and_eq_true, decide_eq_true_eq, and_assoc]
  exact Iff.rfl

theorem mem_foldl_removeConfirmation : tx ∈ hashes.foldl (removeConfirmation host network) t ↔
    tx ∈ t ∧ ∀ hash ∈ hashes, tx.key ≠ key host hash network := by
  induction hashes generalizing t with
  | nil => simp
  | cons hash rest ih =>
    rw [List.foldl_cons, ih, removeConfirmation, Table.mem_remove, List.forall_mem_cons, and_assoc]

/-- A hash is tracked once on a network. -/
theorem affected_injective {other : ConfirmedTx} (htx : tx ∈ t)
    (hother : other ∈ findAffected host network fromBlock toBlock t)
    (h : tx.key = key host other.txHash network) : tx = other := by
  obtain ⟨hmem, hnetwork, -⟩ := mem_findAffected.mp hother
  refine Table.key_injective htx hmem (h.trans ?_)
  rw [key, ConfirmedTx.key, hnetwork]

theorem key_affected (h : tx ∈ findAffected host network fromBlock toBlock t) :
    tx.key = key host tx.txHash network := by
  rw [key, ConfirmedTx.key, (mem_findAffected.mp h).2.1]

/-- What is affected is removed, and nothing is recorded yet. -/
structure Removes (affected : List ConfirmedTx) (s s' : State) : Prop where
  events : s'.reorgEvents = s.reorgEvents
  rows : s'.transactionReorgs = s.transactionReorgs
  tracked : ∀ tx, tx ∈ s'.confirmedTxs ↔ tx ∈ s.confirmedTxs ∧ tx ∉ affected

theorem removes_orphan (host : Host) (h : Handling) (a : Nat) (s : State) :
    Removes (findAffected host h.network (a + 1) h.oldTip.blockNumber s.confirmedTxs) s
      (orphan host h a s).2 := by
  have hstate : (orphan host h a s).2 = { s with
      confirmedTxs := ((findAffected host h.network (a + 1) h.oldTip.blockNumber s.confirmedTxs).map
        (·.txHash)).foldl (removeConfirmation host h.network) s.confirmedTxs } := by
    simp only [orphan]
    split <;> rfl
  rw [hstate]
  refine ⟨rfl, rfl, fun tx => mem_foldl_removeConfirmation.trans (and_congr_right fun htx => ?_)⟩
  constructor
  · intro hkeys hmem
    exact hkeys tx.txHash (List.mem_map_of_mem hmem) (key_affected hmem)
  · intro hnot hash hhash he
    obtain ⟨other, hother, rfl⟩ := List.mem_map.mp hhash
    obtain rfl := affected_injective htx hother he
    exact hnot hother

theorem originalBlock_affected (h : tx ∈ findAffected host network fromBlock toBlock t) :
    originalBlock ((findAffected host network fromBlock toBlock t).map
      fun tx => (tx.txHash, tx.confirmedAtBlock)) tx.txHash = some tx.confirmedAtBlock := by
  rw [originalBlock]
  cases hfind : ((findAffected host network fromBlock toBlock t).map
      fun tx => (tx.txHash, tx.confirmedAtBlock)).reverse.find? (·.1 = tx.txHash) with
  | none =>
    have hnone := List.find?_eq_none.mp hfind (tx.txHash, tx.confirmedAtBlock)
      (List.mem_reverse.mpr (List.mem_map.mpr ⟨tx, h, rfl⟩))
    exact absurd (decide_eq_true rfl) hnone
  | some pair =>
    obtain ⟨other, hother, rfl⟩ :=
      List.mem_map.mp (List.mem_reverse.mp (List.mem_of_find?_eq_some hfind))
    have hhash : other.txHash = tx.txHash := by simpa using List.find?_some hfind
    have hkey := key_affected h
    rw [← hhash] at hkey
    rw [affected_injective (mem_findAffected.mp h).1 hother hkey]
    rfl

/-! ## One poll -/

/-- The database answers to what is asked for these confirmations. -/
def Answers (told : Told) (affected : List ConfirmedTx) : Prop :=
  told.rejects .transaction = false ∧ (affected ≠ [] → told.rejects .findMany = false)

def paymentsOf (told : Told) (affected : List ConfirmedTx) : List AffectedPayment :=
  resolveAffectedPayments told (affected.map (·.txHash))
    (affected.map fun tx => (tx.txHash, tx.confirmedAtBlock))

/-- What is left of a reorganisation that is handled down to some block. -/
structure Handled (chains : List ChainConfig) (h : Handling) (a : Nat) (told : Told)
    (affected : List ConfirmedTx) (s s' : State) : Prop where
  recorded : Answers told affected → s' = { persistReorgEvent chains told.uuid
    (incidentOf h (a + 1) affected) (paymentsOf told affected) s with tips := s'.tips }
  unrecorded : ¬ Answers told affected → s' = s

theorem handled_persisting (host : Host) (k : Nat)
    (hanswers : affected ≠ [] → told.rejects .findMany = false) :
    Handled chains h a told affected s ((detector host chains).alone told (k + 2)
      (.waits (.persisting h (incidentOf h (a + 1) affected) (paymentsOf told affected)),
        s)).2 := by
  rw [alone_waits]
  constructor
  · intro hanswers
    simp only [detector, resume, hanswers.1, Bool.false_eq_true, if_false]
    split
    · rw [alone_waits]
      simp only [alone_done]
      rfl
    · rw [alone_done]
      rfl
  · intro hrejects
    have htransaction : told.rejects .transaction = true :=
      Bool.eq_true_of_not_eq_false fun h => hrejects ⟨h, hanswers⟩
    simp only [detector, resume, htransaction, if_true, alone_done]

theorem handled_orphan (host : Host) (chains : List ChainConfig) (told : Told) (h : Handling)
    (a k : Nat) (s : State) :
    Handled chains h a told
      (findAffected host h.network (a + 1) h.oldTip.blockNumber s.confirmedTxs)
      (orphan host h a s).2 ((detector host chains).alone told (k + 3) (orphan host h a s)).2 := by
  generalize haffected : findAffected host h.network (a + 1) h.oldTip.blockNumber s.confirmedTxs =
    affected
  simp only [orphan, haffected]
  split
  next hnone =>
    obtain rfl := List.map_eq_nil_iff.mp hnone
    exact handled_persisting host (k + 1) fun hsome => absurd rfl hsome
  next hsome =>
    rw [alone_waits]
    cases hrejects : told.rejects .findMany with
    | true =>
      simp only [detector, resume, hrejects, if_true, alone_done]
      refine ⟨fun hanswers => ?_, fun _ => rfl⟩
      have hfound := hanswers.2 fun hnil => hsome (hnil ▸ rfl)
      rw [hrejects] at hfound
      contradiction
    | false =>
      simp only [detector, resume, hrejects, Bool.false_eq_true, if_false]
      exact handled_persisting host k fun _ => hrejects

/-- The search ends at the block below the old tip. -/
theorem handleReorg_alone (host : Host) (chains : List ChainConfig) (hprovides : told.Provides)
    (hg : Reorganised g network old new ancestor) (hchain : s.chain = g.state.chain) :
    ∃ k, (detector host chains).alone told 4
        (handleReorg host ⟨network, tipOf old.head, new.head⟩ s) =
      (detector host chains).alone told (k + 3)
        (orphan host ⟨network, tipOf old.head, new.head⟩ (old.height - 1) s) := by
  have horphaned := hg.orphaned
  have hheight := hg.height
  have hstart : (min (tipOf old.head).blockNumber new.head.number - 1 : Int) =
      (old.height - 1 : Nat) := by
    simp only [tipOf, Chain.head_number]
    omega
  rw [handleReorg, hstart, walk]
  split
  next hwalks =>
    obtain ⟨block, hblock⟩ := Option.isSome_iff_exists.mp
      (hg.common.getBlock_isSome (Nat.le_sub_one_of_lt horphaned) (by omega : old.height - 1 ≤ _))
    refine ⟨0, ?_⟩
    rw [alone_waits]
    simp only [detector, resume, hprovides.block, Bool.false_eq_true, if_false, getBlock,
      hprovides.present, hchain, hg.chain, Int.toNat_natCast, hblock]
  next hends =>
    refine ⟨1, ?_⟩
    rw [max_eq_right (Int.natCast_nonneg _), Int.toNat_natCast]

theorem run_pollAlone (host : Host) (chains : List ChainConfig) (hprovides : told.Provides)
    (hg : Reorganised g network old new ancestor) :
    (run (machine (detector host chains)) g (pollAlone network told g.tasks.length)).state =
      ((detector host chains).alone told 4 (handleReorg host ⟨network, tipOf old.head, new.head⟩
        (g.state.setNetworkHead host network new.height))).2 := by
  have hcall : (detector host chains).call (.pollChain network) told g.state =
      some (.waits (.number network), g.state) := by
    simp only [detector, request, pollChain, hg.provider, if_true]
  rw [pollAlone, run_alone hcall, alone_waits]
  have hnumber : (detector host chains).resume (.number network) told g.state =
      (.waits (.head network new.height (tipOf old.head)), g.state) := by
    have hge : ¬ new.height < (tipOf old.head).blockNumber := by
      simpa only [tipOf, Chain.head_number] using Nat.not_lt.mpr hg.height
    simp only [detector, resume, hprovides.number, Bool.false_eq_true, if_false, hg.tip,
      getBlockNumber, hg.chain, hprovides.current, Nat.sub_zero, hge]
  have hhead : (detector host chains).resume (.head network new.height (tipOf old.head)) told
      g.state = handleReorg host ⟨network, tipOf old.head, new.head⟩
        (g.state.setNetworkHead host network new.height) := by
    simp only [detector, resume, hprovides.block, Bool.false_eq_true, if_false, getBlock,
      hprovides.present, hg.chain, Chain.getBlock_height, poll, hg.detects, if_true]
  rw [hnumber, alone_waits, hhead]

theorem Handled.confirmedTxs (hh : Handled chains h a told affected s s') :
    s'.confirmedTxs = s.confirmedTxs := by
  by_cases hanswers : Answers told affected
  · rw [hh.recorded hanswers]
    rfl
  · rw [hh.unrecorded hanswers]

theorem Handled.events (hh : Handled chains h a told affected s s')
    (hanswers : Answers told affected) : s'.reorgEvents = s.reorgEvents ++
      [eventOf chains told.uuid (incidentOf h (a + 1) affected) (paymentsOf told affected)] := by
  rw [hh.recorded hanswers]
  rfl

theorem Handled.rows (hh : Handled chains h a told affected s s')
    (hanswers : Answers told affected) : s'.transactionReorgs = s.transactionReorgs ++
      (paymentsOf told affected).map (TransactionReorg.mk told.uuid h.network ·) := by
  rw [hh.recorded hanswers]
  rfl

/-- The rows of a reorganisation are those of the confirmations that were affected. -/
theorem mem_rows (told : Told) (uuid : String) (hash : TxHash) (block : Nat) :
    (∃ row ∈ (paymentsOf told (findAffected host network fromBlock toBlock t)).map
        (TransactionReorg.mk uuid network ·),
      row.reorgEventId = uuid ∧ row.network = network ∧ row.payment.txHash = hash ∧
        row.payment.originalBlock = some block) ↔
      ∃ tx ∈ findAffected host network fromBlock toBlock t,
        tx.txHash = hash ∧ tx.confirmedAtBlock = block := by
  simp only [paymentsOf, resolveAffectedPayments, List.map_map, List.mem_map,
    exists_exists_and_eq_and, Function.comp_apply, true_and]
  refine exists_congr fun tx => and_congr_right fun htx => and_congr_right fun _ => ?_
  rw [originalBlock_affected htx, Option.some.injEq]

/-- What one poll leaves of a reorganisation that it detects. -/
theorem handled_pollAlone (host : Host) (chains : List ChainConfig) (hprovides : told.Provides)
    (hg : Reorganised g network old new ancestor) :
    ∃ s, Removes (findAffected host network old.height old.height g.state.confirmedTxs) g.state s ∧
      Handled chains ⟨network, tipOf old.head, new.head⟩ (old.height - 1) told
        (findAffected host network old.height old.height g.state.confirmedTxs) s
        (run (machine (detector host chains)) g (pollAlone network told g.tasks.length)).state := by
  have horphaned := hg.orphaned
  have hpositive : old.height - 1 + 1 = old.height := Nat.sub_add_cancel (by omega)
  have hnumber : (tipOf old.head).blockNumber = old.height := old.head_number
  obtain ⟨k, hk⟩ := handleReorg_alone host chains (s := g.state.setNetworkHead host network
    new.height) hprovides hg rfl
  have hremoves := removes_orphan host ⟨network, tipOf old.head, new.head⟩ (old.height - 1)
    (g.state.setNetworkHead host network new.height)
  have hhandled := handled_orphan host chains told ⟨network, tipOf old.head, new.head⟩
    (old.height - 1) k (g.state.setNetworkHead host network new.height)
  rw [hpositive, hnumber] at hremoves hhandled
  rw [run_pollAlone host chains hprovides hg, hk]
  exact ⟨_, ⟨hremoves.events, hremoves.rows, hremoves.tracked⟩, hhandled⟩

/-- A reorganisation that a poll detects is reported as it was, and the confirmations in its blocks
removed, if and only if the old tip is the only block that was orphaned and the database answers. -/
theorem reports_iff (hprovides : told.Provides) (hg : Reorganised g network old new ancestor) :
    Reports host network ancestor old.height g.state
        (run (machine (detector host chains)) g (pollAlone network told g.tasks.length)).state ↔
      ancestor + 1 = old.height ∧ told.rejects .transaction = false ∧
        ((∃ tx ∈ g.state.confirmedTxs, IsOrphaned host network ancestor old.height tx) →
          told.rejects .findMany = false) := by
  obtain ⟨s, hremoves, hhandled⟩ := handled_pollAlone host chains hprovides hg
  generalize (run (machine (detector host chains)) g
    (pollAlone network told g.tasks.length)).state = s' at hhandled ⊢
  -- what is affected is what was orphaned, when only the tip was
  have hmem : ancestor + 1 = old.height → ∀ tx,
      tx ∈ findAffected host network old.height old.height g.state.confirmedTxs ↔
        tx ∈ g.state.confirmedTxs ∧ IsOrphaned host network ancestor old.height tx := by
    intro hlast tx
    rw [mem_findAffected, IsOrphaned, ← hlast, Nat.succ_le_iff]
  have hanswers : ancestor + 1 = old.height →
      (Answers told (findAffected host network old.height old.height g.state.confirmedTxs) ↔
        told.rejects .transaction = false ∧
          ((∃ tx ∈ g.state.confirmedTxs, IsOrphaned host network ancestor old.height tx) →
            told.rejects .findMany = false)) := by
    intro hlast
    rw [Answers, ne_eq, List.eq_nil_iff_forall_not_mem]
    simp only [not_forall, not_not, hmem hlast]
  have hfrom : old.height - 1 + 1 = old.height :=
    Nat.sub_add_cancel (Nat.one_le_of_lt hg.orphaned)
  constructor
  · intro hreports
    obtain ⟨event, rows, hevents, -, -, hstarts, -⟩ := hreports.recorded
    by_cases hans : Answers told
        (findAffected host network old.height old.height g.state.confirmedTxs)
    · rw [hhandled.events hans, hremoves.events] at hevents
      obtain rfl := List.singleton_inj.mp (List.append_cancel_left hevents)
      have hlast : ancestor + 1 = old.height := hstarts.symm.trans hfrom
      exact ⟨hlast, (hanswers hlast).mp hans⟩
    · rw [hhandled.unrecorded hans, hremoves.events] at hevents
      exact absurd (List.self_eq_append_right.mp hevents) (List.cons_ne_nil _ _)
  · rintro ⟨hlast, hdatabase⟩
    have hans := (hanswers hlast).mpr hdatabase
    constructor
    · refine ⟨_, _, hremoves.events ▸ hhandled.events hans, hremoves.rows ▸ hhandled.rows hans, rfl,
        hfrom.trans hlast.symm, old.head_number, fun hash block => ?_⟩
      refine (mem_rows told told.uuid hash block).trans ?_
      simp only [hmem hlast, and_assoc]
    · intro tx
      rw [hhandled.confirmedTxs, hremoves.tracked, hmem hlast, not_and']
      exact and_congr_right fun htx => ⟨fun h horphaned => h horphaned htx, fun h ho _ => h ho⟩

/-! ## Two reorganisations -/

def tipReplaced : Chain String :=
  ⟨[⟨0, "a", ""⟩, ⟨1, "b", "a"⟩, ⟨2, "x", "b"⟩], by decide, by decide⟩

def twoReplaced : Chain String :=
  ⟨[⟨0, "a", ""⟩, ⟨1, "y", "a"⟩, ⟨2, "x", "y"⟩], by decide, by decide⟩

/-- A confirmation is tracked in the block below the last one, and the chain becomes another. -/
def reorganised (chain : Chain String) : Detector :=
  run (machine (detector plainHost [])) ⟨start fun _ => grown, []⟩
    [.call (.startChain "net") answering, .resume 0 answering, .resume 0 answering,
      .call (.recordConfirmation "tx" "net" 1) answering, .call (.becomes "net" chain) answering]

theorem answering_provides : answering.Provides := ⟨rfl, rfl, rfl, rfl⟩

theorem tipReplaced_reports :
    Reports plainHost "net" 1 grown.height (reorganised tipReplaced).state
        (run (machine (detector plainHost [])) (reorganised tipReplaced)
          (pollAlone "net" answering (reorganised tipReplaced).tasks.length)).state ↔
      1 + 1 = grown.height ∧ answering.rejects .transaction = false ∧
        ((∃ tx ∈ (reorganised tipReplaced).state.confirmedTxs,
          IsOrphaned plainHost "net" 1 grown.height tx) → answering.rejects .findMany = false) :=
  reports_iff answering_provides ⟨by decide +kernel, by decide +kernel, rfl,
    ⟨by decide +kernel, by decide +kernel, by decide +kernel⟩, by decide +kernel, by decide +kernel,
    by decide +kernel⟩

theorem twoReplaced_reorganised : Reorganised (reorganised twoReplaced) "net" grown twoReplaced 0 :=
  ⟨by decide +kernel, by decide +kernel, rfl,
    ⟨by decide +kernel, by decide +kernel, by decide +kernel⟩, by decide +kernel, by decide +kernel,
    by decide +kernel⟩

/-- Two blocks are replaced: the confirmation in the first of them stays tracked. -/
theorem reorgs_go_wrong :
    Reorganised (reorganised twoReplaced) "net" grown twoReplaced 0 ∧
      ¬ Reports plainHost "net" 0 grown.height (reorganised twoReplaced).state
        (run (machine (detector plainHost [])) (reorganised twoReplaced)
          (pollAlone "net" answering (reorganised twoReplaced).tasks.length)).state := by
  refine ⟨twoReplaced_reorganised, fun hreports => ?_⟩
  have htracked : (⟨"id", "tx", "net", 1, 0⟩ : ConfirmedTx) ∈
      (run (machine (detector plainHost [])) (reorganised twoReplaced)
        (pollAlone "net" answering (reorganised twoReplaced).tasks.length)).state.confirmedTxs :=
    show _ ∈ Table.records _ by decide +kernel
  exact ((hreports.removed _).mp htracked).2 ⟨rfl, by decide +kernel, by decide +kernel⟩

end ReorgDetector
