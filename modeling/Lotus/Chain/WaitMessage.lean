import Lotus.Chain.Receipts
import Lotus.Chain.Reorg

/-!
# Waiting for a message

`WaitForMessage` and `searchBackForMsg` of `chain/stmgr/stmgr.go`.
-/

namespace Lotus

open StateTree List

/-! ## The model -/

section Model

variable (sm : StateManager)

/-- The loop of `searchBackForMsg`, with `n` tipsets to go. -/
def searchBackLoop (m : ChainMsg) : ℕ → TipSet → Except NodeErr (Option (TipSet × MessageReceipt))
  | 0, _ => .error (.new "chain is longer than the store")
  | n + 1, cur =>
    if cur.height = 0 then .ok none
    else do
      let act ← (getActor sm.env.init m.vmMessage.fromAddr
        (loadStateTree cur.parentState)).1.mapError fun err => .wrap "get actor" (.tree err)
      if act.nonce = 0 ∨ act.nonce < m.vmMessage.nonce then .ok none
      else do
        let ts ← (loadTipSet sm.cs cur.parents).mapError
          (.wrap "failed to load tipset during msg wait searchback")
        let r ← (tipsetExecutedMessage sm ts m.cid m.vmMessage).mapError
          (.wrap "checking for message execution during lookback")
        match r with
        | some r => .ok (some (ts, r))
        | none => searchBackLoop m n ts

def searchBackForMsg (source : TipSet) (m : ChainMsg) :
    Except NodeErr (Option (TipSet × MessageReceipt)) :=
  searchBackLoop sm m sm.cs.depth source

/-- The variables of `WaitForMessage`. The source does not keep the last head it was told of, only
its height. -/
structure WaitState where
  candidate : Option (TipSet × MessageReceipt)
  heightOfHead : Int64
  reverts : List (List Cid)
  /-- The search is not done, or was not looked at yet. -/
  backSearchWait : Bool
  told : TipSet
deriving DecidableEq

/-- What happens next. -/
inductive WaitEvent where
  /-- Head changes come in. -/
  | notif (changes : List HeadChange)
  /-- The search ends. It finds nothing if it was cancelled. -/
  | backSearch (cancelled : Bool)
  /-- The context is done, or the stream of head changes is. -/
  | closed (err : NodeErr)

/-- How it goes on: with another round of the loop, with an error, or with a tipset and a receipt,
when `told` was the last head. -/
inductive WaitStep where
  | go (s : WaitState)
  | failed (err : NodeErr)
  | returned (ts : TipSet) (r : MessageReceipt) (told : TipSet)
deriving DecidableEq

variable (mcid : Cid) (msg : ChainMsg) (confidence : UInt64)

def applyTold (val : TipSet) (s : WaitState) : WaitStep :=
  match tipsetExecutedMessage sm val mcid msg.vmMessage with
  | .error err => .failed err
  | .ok none => .go { s with heightOfHead := val.height, told := val }
  | .ok (some r) =>
    if confidence = 0 then .returned val r val
    else .go { s with candidate := some (val, r), heightOfHead := val.height, told := val }

def handleChange (s : WaitState) : HeadChange → WaitStep
  | .current _ => .go s
  | .revert val =>
    .go { s with
      candidate := s.candidate.filter fun c => !val.equals sm.cs.hashing c.1
      reverts := if s.backSearchWait then val.cids sm.cs.hashing :: s.reverts else s.reverts
      told := (parentOf sm.cs val).getD s.told }
  | .apply val =>
    match s.candidate with
    | some (ts, r) =>
      if val.height ≥ ts.height + confidence.toInt64 then .returned ts r val
      else applyTold sm mcid msg confidence val s
    | none => applyTold sm mcid msg confidence val s

def handleChanges (s : WaitState) : List HeadChange → WaitStep
  | [] => .go s
  | change :: changes =>
    match handleChange sm mcid msg confidence s change with
    | .go s => handleChanges s changes
    | step => step

def handleBackSearch (s : WaitState) (found : Option (TipSet × MessageReceipt)) : WaitStep :=
  match found with
  | none => .go { s with reverts := [], backSearchWait := false }
  | some (backTs, backRcp) =>
    if backTs.cids sm.cs.hashing ∈ s.reverts then
      .go { s with reverts := [], backSearchWait := false }
    else if s.heightOfHead ≥ backTs.height + confidence.toInt64 then
      .returned backTs backRcp s.told
    else .go { s with candidate := some (backTs, backRcp), reverts := [], backSearchWait := false }

def handleEvent (head : TipSet) (s : WaitState) : WaitEvent → WaitStep
  | .notif changes => handleChanges sm mcid msg confidence s changes
  | .backSearch cancelled =>
    match searchBackForMsg sm head msg with
    | .error _ => .go s
    | .ok found =>
      if s.backSearchWait then
        handleBackSearch sm confidence s (if cancelled then none else found)
      else .go s
  | .closed err => .failed err

/-- The loop of `WaitForMessage`. -/
def waitLoop (head : TipSet) (s : WaitState) : List WaitEvent → WaitStep
  | [] => .go s
  | event :: events =>
    match handleEvent sm mcid msg confidence head s event with
    | .go s => waitLoop head s events
    | step => step

/-- `WaitForMessage`, with the first item on the stream of head changes and what happens after
it. -/
def waitForMessage (getCMessage : Cid → Except NodeErr ChainMsg) (first : List HeadChange)
    (events : List WaitEvent) : WaitStep :=
  match getCMessage mcid with
  | .error err => .failed (.wrap "failed to load message" err)
  | .ok msg =>
    match first with
    | [.current head] =>
      match tipsetExecutedMessage sm head mcid msg.vmMessage with
      | .error err => .failed err
      | .ok (some r) => .returned head r head
      | .ok none =>
        waitLoop sm mcid msg confidence head ⟨none, head.height, [], true, head⟩ events
    | [_] => .failed (.new "expected current head on SHC stream (got %s)")
    | _ => .failed (.new "SubHeadChanges first entry should have been one item")

end Model

section Search

variable {sm : StateManager} {m : ChainMsg} {g cur : TipSet} {l : List TipSet}

lemma searchBackLoop_mem (h : ChainOf sm.cs g cur l) {n : ℕ} {ts : TipSet} {r : MessageReceipt}
    (hfound : searchBackLoop sm m n cur = .ok (some (ts, r))) : ts ∈ l := by
  induction n generalizing cur l with
  | zero => cases hfound
  | succ n ih =>
    rw [searchBackLoop] at hfound
    split_ifs at hfound with hzero
    · cases hfound
    obtain ⟨act, -, hfound⟩ := Check.bind_eq_ok.mp hfound
    split_ifs at hfound
    · cases hfound
    obtain ⟨pts, hload, hfound⟩ := Check.bind_eq_ok.mp hfound
    obtain ⟨r', -, hfound⟩ := Check.bind_eq_ok.mp hfound
    have hpos : 0 < cur.level :=
      lt_of_le_of_ne h.level_nonneg fun hlevel => hzero (Int64.toInt_inj.mp hlevel.symm)
    obtain ⟨pts', l, rfl⟩ := h.exists_parent hpos
    grind [h.tail, Check.mapError_eq_ok]

lemma searchBackForMsg_mem (h : ChainOf sm.cs g cur l) {ts : TipSet} {r : MessageReceipt}
    (hfound : searchBackForMsg sm cur m = .ok (some (ts, r))) : ts ∈ l :=
  searchBackLoop_mem h hfound

end Search

/-! ## Candidates -/

section Candidates

variable {sm : StateManager} {g head : TipSet} {mcid : Cid} {msg : ChainMsg} {confidence : UInt64}
  {l chain : List TipSet} {s : WaitState}

variable (sm g confidence) in
/-- The tipset is on the chain of the last head, and the head is high enough above it. -/
def Confirmed (ts told : TipSet) : Prop :=
  ∃ l, ChainOf sm.cs g told l ∧ ts ∈ told :: l ∧ ts.level + confidence.toNat ≤ told.level

variable (sm g confidence) in
/-- The loop goes on in a state with the property, or ends well. -/
def WaitStep.Good (P : WaitState → Prop) : WaitStep → Prop
  | .go s => P s
  | .failed _ => True
  | .returned ts _ told => Confirmed sm g confidence ts told

variable (sm g confidence) in
/-- The last head has the chain `l`. A candidate is on it, and so is what is on the chain that the
search started with and was not reverted. -/
structure WaitInv (chain : List TipSet) (s : WaitState) (l : List TipSet) : Prop where
  chainOf : ChainOf sm.cs g s.told l
  candidate : ∀ ts r, s.candidate = some (ts, r) →
    ts ∈ s.told :: l ∧ ts.level + confidence.toNat < 2 ^ 63
  kept : s.backSearchWait = true → ∀ x ∈ chain, x.cids sm.cs.hashing ∉ s.reverts →
    x ∈ s.told :: l

lemma toInt_height_add {ts : TipSet} (hnonneg : 0 ≤ ts.level)
    (hbound : ts.level + confidence.toNat < 2 ^ 63) :
    (ts.height + confidence.toInt64).toInt = ts.level + confidence.toNat := by
  have hconf : confidence.toInt64.toInt = confidence.toNat := Word.toInt_toInt64_of_lt (by omega)
  unfold TipSet.level at hnonneg hbound ⊢
  rw [Word.toInt_add_of_mem, hconf] <;> rw [hconf] <;> omega

lemma confirmed_of_height_le {ts told : TipSet} (hchain : ChainOf sm.cs g told l)
    (hmem : ts ∈ told :: l) (hbound : ts.level + confidence.toNat < 2 ^ 63)
    (hle : told.height ≥ ts.height + confidence.toInt64) : Confirmed sm g confidence ts told := by
  obtain ⟨-, post, -, hts⟩ := hchain.of_mem hmem
  have hle : (ts.height + confidence.toInt64).toInt ≤ told.level := Int64.le_iff_toInt_le.mp hle
  rw [toInt_height_add hts.level_nonneg hbound] at hle
  exact ⟨l, hchain, hmem, hle⟩

lemma handleChange_revert {pts : TipSet} {l : List TipSet}
    (h : WaitInv sm g confidence chain s (pts :: l)) :
    (handleChange sm mcid msg confidence s (.revert s.told)).Good sm g confidence fun s' =>
      WaitInv sm g confidence chain s' l ∧ s'.told = pts ∧ s'.heightOfHead = s.heightOfHead := by
  obtain ⟨hload, -, hpts⟩ := h.chainOf.tail
  have hparent : (parentOf sm.cs s.told).getD s.told = pts := by
    rw [parentOf_eq_some.mpr hload, Option.getD_some]
  have hdown {x : TipSet} (hx : x ∈ s.told :: pts :: l) (hne : x ≠ s.told) : x ∈ pts :: l :=
    (mem_cons.mp hx).resolve_left hne
  refine ⟨⟨hparent.symm ▸ hpts, fun ts r hcand => ?_, fun hwait x hx hnot => ?_⟩, hparent, rfl⟩
  · obtain ⟨hcand, hdiffer⟩ := Option.filter_eq_some_iff.mp hcand
    obtain ⟨hmem, hbound⟩ := h.candidate ts r hcand
    refine ⟨hparent.symm ▸ hdown hmem ?_, hbound⟩
    rintro rfl
    rw [TipSet.equals_self] at hdiffer
    cases hdiffer
  · have hwait : s.backSearchWait = true := hwait
    replace hnot : x.cids sm.cs.hashing ∉ s.told.cids sm.cs.hashing :: s.reverts := by
      rwa [if_pos hwait] at hnot
    rw [mem_cons, not_or] at hnot
    refine hparent.symm ▸ hdown (h.kept hwait x hx hnot.2) ?_
    rintro rfl
    exact hnot.1 rfl

lemma handleChange_apply {val : TipSet} (h : WaitInv sm g confidence chain s l)
    (hval : ChainOf sm.cs g val (s.told :: l)) (hbound : val.level + confidence.toNat < 2 ^ 63) :
    (handleChange sm mcid msg confidence s (.apply val)).Good sm g confidence fun s' =>
      WaitInv sm g confidence chain s' (s.told :: l) ∧ s'.told = val ∧
        s'.heightOfHead = val.height := by
  have happly : (applyTold sm mcid msg confidence val s).Good sm g confidence fun s' =>
      WaitInv sm g confidence chain s' (s.told :: l) ∧ s'.told = val ∧
        s'.heightOfHead = val.height := by
    unfold applyTold
    split
    · trivial
    · refine ⟨⟨hval, fun ts r hcand => ?_, fun hwait x hx hnot => ?_⟩, rfl, rfl⟩
      · grind [h.candidate, mem_cons_of_mem]
      · exact mem_cons_of_mem val (h.kept hwait x hx hnot)
    · split_ifs with hzero
      · refine ⟨s.told :: l, hval, .head _, ?_⟩
        rw [hzero]
        exact (add_zero _).le
      · refine ⟨⟨hval, fun ts r hcand => ?_, fun hwait x hx hnot => ?_⟩, rfl, rfl⟩
        · grind
        · exact mem_cons_of_mem val (h.kept hwait x hx hnot)
  rcases hcand : s.candidate with - | ⟨ts, r⟩
  · have hstep : handleChange sm mcid msg confidence s (.apply val) =
        applyTold sm mcid msg confidence val s := by
      simp only [handleChange, hcand]
    rwa [hstep]
  · have hstep : handleChange sm mcid msg confidence s (.apply val) =
        if val.height ≥ ts.height + confidence.toInt64 then .returned ts r val
        else applyTold sm mcid msg confidence val s := by
      simp only [handleChange, hcand]
    obtain ⟨hmem, hle⟩ := h.candidate ts r hcand
    rw [hstep]
    split_ifs with hhigh
    · exact confirmed_of_height_le hval (mem_cons_of_mem val hmem) hle hhigh
    · exact happly

end Candidates

/-! ## Notifications -/

section Notifications

variable {sm : StateManager} {g head : TipSet} {mcid : Cid} {msg : ChainMsg} {confidence : UInt64}
  {l chain : List TipSet} {s : WaitState} {P Q : WaitState → Prop}

lemma WaitStep.Good.imp {step : WaitStep} (h : step.Good sm g confidence P)
    (hPQ : ∀ s, P s → Q s) : step.Good sm g confidence Q := by
  cases step with
  | go s => exact hPQ s h
  | failed err => trivial
  | returned ts r told => exact h

lemma handleChanges_cons {change : HeadChange} {changes : List HeadChange}
    (h : (handleChange sm mcid msg confidence s change).Good sm g confidence P)
    (hnext : ∀ s', P s' →
      (handleChanges sm mcid msg confidence s' changes).Good sm g confidence Q) :
    (handleChanges sm mcid msg confidence s (change :: changes)).Good sm g confidence Q := by
  rw [handleChanges]
  rcases hstep : handleChange sm mcid msg confidence s change with s' | err | ⟨ts, r, told⟩
  · rw [hstep] at h
    exact hnext s' h
  · trivial
  · rw [hstep] at h
    exact h

lemma handleChanges_revert {revert shared : List TipSet} {x : TipSet} {changes : List HeadChange}
    (h : WaitInv sm g confidence chain s l) (heq : s.told :: l = revert ++ x :: shared)
    (hnext : ∀ s', WaitInv sm g confidence chain s' shared → s'.told = x →
      s'.heightOfHead = s.heightOfHead →
      (handleChanges sm mcid msg confidence s' changes).Good sm g confidence Q) :
    (handleChanges sm mcid msg confidence s
      (revert.map .revert ++ changes)).Good sm g confidence Q := by
  induction revert generalizing s l with
  | nil => grind
  | cons val revert ih =>
    obtain ⟨rfl, hl⟩ := List.cons.inj heq
    rcases l with - | ⟨pts, l⟩
    · exact absurd hl.symm (by simp)
    · refine handleChanges_cons (handleChange_revert h) ?_
      rintro s' ⟨hinv, htold, hheight⟩
      exact ih hinv (htold ▸ hl) fun s'' hinv' htold' hheight' =>
        hnext s'' hinv' htold' (hheight'.trans hheight)

lemma handleChanges_apply {apply l' : List TipSet} {head' : TipSet}
    (h : WaitInv sm g confidence chain s l) (hhead : ChainOf sm.cs g head' l')
    (heq : head' :: l' = apply.reverse ++ s.told :: l)
    (hbound : ∀ ts ∈ apply, ts.level + confidence.toNat < 2 ^ 63) :
    (handleChanges sm mcid msg confidence s (apply.map .apply)).Good sm g confidence fun s' =>
      WaitInv sm g confidence chain s' l' ∧ s'.told = head' ∧
        s'.heightOfHead = if apply = [] then s.heightOfHead else head'.height := by
  induction apply generalizing s l with
  | nil =>
    obtain ⟨htold, rfl⟩ := List.cons.inj heq
    exact ⟨h, htold.symm, (if_pos rfl).symm⟩
  | cons val apply ih =>
    rw [reverse_cons, append_assoc, singleton_append] at heq
    refine handleChanges_cons (handleChange_apply h (hhead.of_append heq)
      (hbound val mem_cons_self)) ?_
    grind

variable (sm g confidence) in
/-- The events are about heads that follow one another, from `head` with the chain `l` on. When the
search ends, the last change was not a revert (`current`). No height overflows with the confidence
added. -/
inductive Follows : Bool → TipSet → List TipSet → List WaitEvent → Prop where
  | nil {current : Bool} {head : TipSet} {l : List TipSet} : Follows current head l []
  | notif {current : Bool} {head head' x : TipSet} {l l' revert apply shared : List TipSet}
      {events : List WaitEvent} :
      Lineage.Fork (head :: l) (head' :: l') revert apply x shared → ChainOf sm.cs g head' l' →
      (∀ ts ∈ apply, ts.level + confidence.toNat < 2 ^ 63) →
      Follows (current && revert.isEmpty || !apply.isEmpty) head' l' events →
      Follows current head l
        (.notif (revert.map .revert ++ apply.reverse.map .apply) :: events)
  | backSearch {head : TipSet} {l : List TipSet} {cancelled : Bool} {events : List WaitEvent} :
      Follows true head l events → Follows true head l (.backSearch cancelled :: events)
  | closed {current : Bool} {head : TipSet} {l : List TipSet} {err : NodeErr}
      {events : List WaitEvent} : Follows current head l (.closed err :: events)

lemma handleChanges_good {head' x : TipSet} {l' revert apply shared : List TipSet}
    {current : Bool} (h : WaitInv sm g confidence chain s l)
    (hheight : current = true → s.heightOfHead = s.told.height)
    (hfork : Lineage.Fork (s.told :: l) (head' :: l') revert apply x shared)
    (hhead : ChainOf sm.cs g head' l')
    (hbound : ∀ ts ∈ apply, ts.level + confidence.toNat < 2 ^ 63) :
    (handleChanges sm mcid msg confidence s
      (revert.map .revert ++ apply.reverse.map .apply)).Good sm g confidence fun s' =>
        WaitInv sm g confidence chain s' l' ∧ s'.told = head' ∧
          ((current && revert.isEmpty || !apply.isEmpty) = true →
            s'.heightOfHead = head'.height) := by
  refine handleChanges_revert h hfork.left_eq fun s1 hinv htold hkept => ?_
  have heq : head' :: l' = apply.reverse.reverse ++ s1.told :: shared := by
    rw [reverse_reverse, htold, hfork.right_eq]
  refine (handleChanges_apply hinv hhead heq fun ts hts =>
    hbound ts (mem_reverse.mp hts)).imp ?_
  rintro s2 ⟨hinv2, htold2, hheight2⟩
  refine ⟨hinv2, htold2, fun hcurrent => ?_⟩
  rw [hheight2]
  split_ifs with hnone
  · -- with nothing to apply and nothing to revert the head stays
    rw [reverse_eq_nil_iff] at hnone
    rw [hnone, List.isEmpty_nil, Bool.not_true, Bool.or_false, Bool.and_eq_true,
      List.isEmpty_iff] at hcurrent
    obtain ⟨hcurrent, hrevert⟩ := hcurrent
    have hleft := (List.cons.inj (hrevert ▸ hfork.left_eq)).1
    have hright := (List.cons.inj (hnone ▸ hfork.right_eq)).1
    rw [hkept, hheight hcurrent, hleft, hright]
  · rfl

lemma handleBackSearch_good {l0 : List TipSet} (hhead : ChainOf sm.cs g head l0)
    (hbound : head.level + confidence.toNat < 2 ^ 63)
    (h : WaitInv sm g confidence (head :: l0) s l) (hheight : s.heightOfHead = s.told.height)
    (hwait : s.backSearchWait = true) {found : Option (TipSet × MessageReceipt)}
    (hfound : ∀ ts r, found = some (ts, r) → ts ∈ l0) :
    (handleBackSearch sm confidence s found).Good sm g confidence fun s' =>
      WaitInv sm g confidence (head :: l0) s' l ∧ s'.told = s.told ∧
        s'.heightOfHead = s.heightOfHead := by
  unfold handleBackSearch
  rcases found with - | ⟨backTs, backRcp⟩
  · exact ⟨⟨h.chainOf, h.candidate, nofun⟩, rfl, rfl⟩
  · have hback : backTs ∈ l0 := hfound backTs backRcp rfl
    have hlt : backTs.level < head.level := hhead.lineage.height_lt hback
    show WaitStep.Good sm g confidence _ (if _ then _ else _)
    split_ifs with hreverted hhigh
    · exact ⟨⟨h.chainOf, h.candidate, nofun⟩, rfl, rfl⟩
    · have hmem := h.kept hwait backTs (mem_cons_of_mem head hback) hreverted
      exact confirmed_of_height_le h.chainOf hmem (by omega) (hheight ▸ hhigh)
    · refine ⟨⟨h.chainOf, fun ts r hcand => ?_, nofun⟩, rfl, rfl⟩
      obtain ⟨rfl, -⟩ := Prod.mk.inj (Option.some.inj hcand)
      exact ⟨h.kept hwait _ (mem_cons_of_mem head hback) hreverted, by omega⟩

lemma handleEvent_backSearch {l0 : List TipSet} {cancelled : Bool}
    (hhead : ChainOf sm.cs g head l0) (hbound : head.level + confidence.toNat < 2 ^ 63)
    (h : WaitInv sm g confidence (head :: l0) s l) (hheight : s.heightOfHead = s.told.height) :
    (handleEvent sm mcid msg confidence head s (.backSearch cancelled)).Good sm g confidence
      fun s' => WaitInv sm g confidence (head :: l0) s' l ∧ s'.told = s.told ∧
        s'.heightOfHead = s.heightOfHead := by
  rcases hsearch : searchBackForMsg sm head msg with err | found
  · simp only [handleEvent, hsearch]
    exact ⟨h, rfl, rfl⟩
  · simp only [handleEvent, hsearch]
    by_cases hwait : s.backSearchWait = true
    · rw [if_pos hwait]
      refine handleBackSearch_good hhead hbound h hheight hwait fun ts r hsome => ?_
      split_ifs at hsome
      exact searchBackForMsg_mem hhead (hsome ▸ hsearch)
    · rw [if_neg hwait]
      exact ⟨h, rfl, rfl⟩

lemma waitLoop_good {l0 : List TipSet} (hhead : ChainOf sm.cs g head l0)
    (hbound : head.level + confidence.toNat < 2 ^ 63) {events : List WaitEvent} {current : Bool}
    (h : WaitInv sm g confidence (head :: l0) s l)
    (hheight : current = true → s.heightOfHead = s.told.height)
    (hfollows : Follows sm g confidence current s.told l events) :
    (waitLoop sm mcid msg confidence head s events).Good sm g confidence fun _ => True := by
  induction events generalizing s l current with
  | nil => trivial
  | cons event events ih =>
    -- one round of the loop, with what the rest of the events needs after it
    have hround {current' : Bool} {l' : List TipSet} {head' : TipSet}
        (hgood : (handleEvent sm mcid msg confidence head s event).Good sm g confidence fun s' =>
          WaitInv sm g confidence (head :: l0) s' l' ∧ s'.told = head' ∧
            (current' = true → s'.heightOfHead = head'.height))
        (hrest : Follows sm g confidence current' head' l' events) :
        (waitLoop sm mcid msg confidence head s (event :: events)).Good sm g confidence
          fun _ => True := by
      rw [waitLoop]
      rcases hstep : handleEvent sm mcid msg confidence head s event with s' | err | ⟨ts, r, told⟩
      · rw [hstep] at hgood
        obtain ⟨hinv, rfl, hheight'⟩ := hgood
        exact ih hinv hheight' hrest
      · trivial
      · rw [hstep] at hgood
        exact hgood
    cases hfollows with
    | notif hfork hhead' hbounds hrest =>
      exact hround (handleChanges_good h hheight hfork hhead' hbounds) hrest
    | backSearch hrest =>
      refine hround ((handleEvent_backSearch hhead hbound h (hheight rfl)).imp ?_) hrest
      grind
    | closed => trivial

/-- When the wait returns, the tipset is on the chain of the last head, which is `confidence` epochs
above it, if the first head did not execute the message or no confidence is asked for, and the heads
follow one another. -/
theorem waitForMessage_confirmed {getCMessage : Cid → Except NodeErr ChainMsg} {l0 : List TipSet}
    {events : List WaitEvent} {ts told : TipSet} {r : MessageReceipt}
    (hhead : ChainOf sm.cs g head l0) (hbound : head.level + confidence.toNat < 2 ^ 63)
    (hfirst : ∀ msg r, getCMessage mcid = .ok msg →
      tipsetExecutedMessage sm head mcid msg.vmMessage = .ok (some r) → confidence = 0)
    (hfollows : Follows sm g confidence true head l0 events)
    (hreturned : waitForMessage sm mcid confidence getCMessage [.current head] events =
      .returned ts r told) :
    ∃ l, ChainOf sm.cs g told l ∧ ts ∈ told :: l ∧ ts.level + confidence.toNat ≤ told.level := by
  have hgood : (waitForMessage sm mcid confidence getCMessage [.current head] events).Good sm g
      confidence fun _ => True := by
    unfold waitForMessage
    rcases hmsg : getCMessage mcid with err | msg
    · trivial
    show (match tipsetExecutedMessage sm head mcid msg.vmMessage with
      | .error err => WaitStep.failed err
      | .ok (some r) => .returned head r head
      | .ok none => _).Good sm g confidence _
    rcases hexec : tipsetExecutedMessage sm head mcid msg.vmMessage with err | - | r
    · trivial
    · refine waitLoop_good hhead hbound ⟨hhead, fun ts r hcand => ?_, fun _ x hx _ => hx⟩
        (fun _ => rfl) hfollows
      exact absurd hcand (Option.some_ne_none _).symm
    · refine ⟨l0, hhead, .head _, ?_⟩
      rw [hfirst msg r hmsg hexec]
      exact (add_zero _).le
  rw [hreturned] at hgood
  exact hgood

def sampleWaited : Message := sampleTransfer (.id 100) (.id 101) 1

def sampleExecuted : FullBlock :=
  ⟨{ sampleHeader (.id 1000) [] with
      height := 2
      parents := [sampleHashing.headerCid sampleFirst.header]
      parentMessageReceipts := [⟨0, [], 814991⟩] }, [], [], FullBlock.no_messages_lt⟩

def sampleLater : FullBlock :=
  ⟨{ sampleHeader (.id 1000) [] with
      height := 10
      parents := [sampleHashing.headerCid sampleExecuted.header]
      parentStateRoot := sampleState.insert (.id 100) ⟨⟨[1]⟩, ⟨[]⟩, 1, 10000000⟩ },
    [], [], FullBlock.no_messages_lt⟩

def sampleWaitManager : StateManager :=
  sampleStateManager [⟨sampleGenesis, [], [], FullBlock.no_messages_lt⟩, sampleFirst,
    sampleExecuted, sampleLater]

def sampleWait (confidence : UInt64) (head : TipSet) (events : List WaitEvent) : WaitStep :=
  waitForMessage sampleWaitManager (sampleCodec.messageCid sampleWaited) confidence
    (fun _ => .ok (sampleWaited.toChainMsg sampleCodec)) [.current head] events

def sampleWaitEvents : List WaitEvent :=
  [.notif [.apply (.single sampleFirst.header)], .backSearch false,
    .notif [.apply (.single sampleExecuted.header)], .notif [.apply (.single sampleLater.header)]]

lemma sampleChain_chainOf : ChainOf sampleWaitManager.cs (.single sampleGenesis)
    (.single sampleLater.header)
    [.single sampleExecuted.header, .single sampleFirst.header, .single sampleGenesis] := by
  refine .link (.link (.link (.genesis ?_ ?_ ?_) ?_ ?_ ?_) ?_ ?_ ?_) ?_ ?_ ?_ <;> decide +kernel

theorem sampleWait_confirmed : sampleWait 3 (.single sampleGenesis) sampleWaitEvents =
      .returned (.single sampleExecuted.header) ⟨0, [], 814991⟩ (.single sampleLater.header) ∧
    ∃ l, ChainOf sampleWaitManager.cs (.single sampleGenesis) (.single sampleLater.header) l ∧
      .single sampleExecuted.header ∈ TipSet.single sampleLater.header :: l ∧
      (TipSet.single sampleExecuted.header).level + (3 : UInt64).toNat ≤
        (TipSet.single sampleLater.header).level := by
  have hlater := sampleChain_chainOf
  obtain ⟨-, -, hexecuted⟩ := hlater.tail
  obtain ⟨-, -, hfirst⟩ := hexecuted.tail
  obtain ⟨-, -, hgenesis⟩ := hfirst.tail
  have hreturned : sampleWait 3 (.single sampleGenesis) sampleWaitEvents =
      .returned (.single sampleExecuted.header) ⟨0, [], 814991⟩ (.single sampleLater.header) := by
    decide +kernel
  have hfollows : Follows sampleWaitManager (.single sampleGenesis) 3 true
      (.single sampleGenesis) [] sampleWaitEvents := by
    -- each time one block over the last head, nothing to revert
    refine .notif ((Lineage.Fork.refl _ _).cons_right ?_) hfirst (by decide) (.backSearch ?_)
    · decide +kernel
    refine .notif ((Lineage.Fork.refl _ _).cons_right ?_) hexecuted (by decide) ?_
    · decide +kernel
    refine .notif ((Lineage.Fork.refl _ _).cons_right ?_) hlater (by decide) .nil
    decide +kernel
  refine ⟨hreturned, waitForMessage_confirmed hgenesis (by decide) ?_ hfollows hreturned⟩
  intro msg r hmsg hexec
  cases hmsg
  have hnone : tipsetExecutedMessage sampleWaitManager (.single sampleGenesis)
      (sampleCodec.messageCid sampleWaited) sampleWaited = .ok none := by decide +kernel
  exact absurd (hnone.symm.trans hexec) (by simp)

theorem sampleWait_unconfirmed : sampleWait 5 (.single sampleExecuted.header) [] =
      .returned (.single sampleExecuted.header) ⟨0, [], 814991⟩ (.single sampleExecuted.header) ∧
    sampleWait 5 (.single sampleLater.header)
        [.notif [.revert (.single sampleLater.header)], .backSearch false] =
      .returned (.single sampleExecuted.header) ⟨0, [], 814991⟩ (.single sampleExecuted.header) ∧
    ¬ (TipSet.single sampleExecuted.header).level + (5 : UInt64).toNat ≤
      (TipSet.single sampleExecuted.header).level := by
  refine ⟨?_, ?_, ?_⟩ <;> decide +kernel

end Notifications

end Lotus
