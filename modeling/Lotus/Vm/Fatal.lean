import Lotus.Vm.Outcome

/-!
# Fatal errors

An error that is classified as fatal is recorded where it comes up.
-/

namespace Lotus

open VM Machine StateTree Act List

/-- A step that drops a fatal error: a state commit that does not find the head it expects, or a
read of `TotalFilCircSupply` or of a system call on which the store fails. -/
def Event.DropsFatal : Event → Prop
  | .mark (.commit found expected) => found ≠ some expected
  | .mark .readFailed => True
  | _ => False

instance : DecidablePred Event.DropsFatal := fun e =>
  match e with
  | .mark (.commit found expected) => inferInstanceAs (Decidable (found ≠ some expected))
  | .mark .readFailed => isTrue trivial
  | .mark (.stateCall _) | .mark (.sent _) | .mark (.transacted _ _) => isFalse id
  | .charged _ | .created _ | .registered _ _ _ | .deleted _ | .fatal | .newAddress _ _ _
  | .round _ => isFalse id

/-- A fatal error was recorded exactly if a step dropped one. -/
def FatalBalanced (es : List Event) : Prop := Event.fatal ∈ es ↔ ∃ e ∈ es, e.DropsFatal

namespace FatalBalanced

lemma of_quiet {es : List Event} (h : ∀ e ∈ es, e ≠ .fatal ∧ ¬e.DropsFatal) : FatalBalanced es :=
  ⟨fun hmem => absurd rfl (h _ hmem).1, fun ⟨e, hmem, hdrops⟩ => absurd hdrops (h e hmem).2⟩

lemma append {es1 es2 : List Event} (h1 : FatalBalanced es1) (h2 : FatalBalanced es2) :
    FatalBalanced (es1 ++ es2) := by
  unfold FatalBalanced at *
  simp only [mem_append, h1, h2, or_and_right, exists_or]

end FatalBalanced

/-- The log goes from `l` to `l'`, and what is new is balanced. -/
def LogOk (l l' : List Event) : Prop := ∃ es, l' = l ++ es ∧ FatalBalanced es

namespace LogOk

variable {l l1 l2 l3 : List Event}

lemma of_quiet {es : List Event} (h : l2 = l1 ++ es)
    (hes : ∀ e ∈ es, e ≠ .fatal ∧ ¬e.DropsFatal) : LogOk l1 l2 := ⟨es, h, .of_quiet hes⟩

lemma refl (l : List Event) : LogOk l l := of_quiet (append_nil l).symm nofun

lemma trans (h1 : LogOk l1 l2) (h2 : LogOk l2 l3) : LogOk l1 l3 := by
  obtain ⟨es1, rfl, hes1⟩ := h1
  obtain ⟨es2, rfl, hes2⟩ := h2
  exact ⟨es1 ++ es2, append_assoc .., hes1.append hes2⟩

lemma snoc {e : Event} (h : LogOk l l1) (hfatal : e ≠ .fatal) (hdrops : ¬e.DropsFatal) :
    LogOk l (l1 ++ [e]) := by
  refine h.trans (of_quiet rfl fun e' he' => ?_)
  rw [mem_singleton.mp he']
  exact ⟨hfatal, hdrops⟩

end LogOk

lemma OnlyCharges.logOk {cs : List Event} (h : OnlyCharges cs) (l : List Event) :
    LogOk l (l ++ cs) := by
  refine .of_quiet rfl fun e hmem => ?_
  obtain ⟨gas, rfl⟩ := h e hmem
  exact ⟨nofun, fun h => h⟩

lemma Pays.logOk {m m' : Machine} (h : Pays m m') : LogOk m.vm.log m'.vm.log := by
  obtain ⟨es, hes, hlog⟩ := h.log_eq
  rw [hlog]
  exact hes.logOk _

lemma FailsAt.log_eq {m m' : Machine} (h : FailsAt m false m') : m'.vm.log = m.vm.log := by
  rcases h with rfl | ⟨hfatal, -⟩
  · rfl
  · cases hfatal

lemma CallStarts.logOk {pl : Place} {c c' : Bool} {m m0 : Machine}
    (h : CallStarts pl c m c' m0) : LogOk m.vm.log m0.vm.log := by
  cases h with
  | send _ => exact (LogOk.refl _).snoc (e := .mark (.sent m.rt.openTxs)) nofun id
  | ctor _ => exact .refl _

lemma Enters.log_eq {m sub : Machine} (h : Enters m sub) : sub.vm.log = m.vm.log :=
  h.grows.log_eq.trans (append_nil _)

variable {env : Env}

lemma stateCommitIgnored_logOk (oldh newh : Cid) (m : Machine) :
    LogOk m.vm.log (Runtime.stateCommitIgnored env oldh newh m).2.vm.log := by
  rcases stateCommitIgnored_cases env oldh newh m with
    ⟨hne, t, -, hrun⟩ | ⟨heq, t, id, act, -, -, -, hrun⟩
  · rw [hrun]
    refine ⟨[.mark (.commit _ oldh), .fatal], append_assoc .., ?_⟩
    exact ⟨fun _ => ⟨_, .head _, hne⟩, fun _ => by simp⟩
  · rw [hrun]
    exact (LogOk.refl _).snoc (e := .mark (.commit _ oldh)) nofun (not_not.mpr heq)

lemma noteStateCall_logOk (m : Machine) : LogOk m.vm.log m.noteStateCall.vm.log :=
  (LogOk.refl _).snoc (e := .mark (.stateCall m.rt.openTxs)) nofun id

lemma Does.logOk {N : Prop} {pl : Place} {c : Bool} {m m' : Machine} {e : Ending}
    (h : Does env N pl c m e m') (he : e ≠ .failed true) : LogOk m.vm.log m'.vm.log := by
  induction h with
  | done | fails | validate => exact .refl _
  | seq _ _ ih1 ih2 => exact (ih1 nofun).trans (ih2 he)
  | fatal | reraise => exact absurd rfl he
  | caught _ ih => exact ih (by decide)
  | deferred gas _ ih => exact (ih he).snoc (e := .charged gas) nofun id
  | charge m gas => exact (LogOk.refl _).snoc (e := .charged gas) nofun id
  | mild hmild =>
    refine .of_quiet hmild.log_eq fun e hmem => ?_
    obtain ⟨id, rfl⟩ := hmild.created e hmem
    exact ⟨nofun, fun h => h⟩
  | readFails m =>
    refine ⟨[.mark .readFailed, .fatal], append_assoc .., ?_⟩
    exact ⟨fun _ => ⟨_, mem_cons_self, trivial⟩, fun _ => by simp⟩
  | newAddress m key _ =>
    exact (LogOk.refl _).snoc (e := .newAddress key m.rt.originNonce m.rt.numActorsCreated) nofun id
  | stateCall m => exact noteStateCall_logOk m
  | @delete _ _ m m1 id vm _ hext ih =>
    rw [hext.log_eq]
    exact ((noteStateCall_logOk m).trans (ih nofun)).snoc nofun fun h => h
  | @create _ _ m m1 newh hpays =>
    exact (noteStateCall_logOk m).trans (hpays.logOk.trans (stateCommitIgnored_logOk _ newh m1))
  | @transaction _ m m1 m2 m3 act t newh _ hpays _ hpays' ih =>
    have hclosure : LogOk m.vm.log m3.vm.log :=
      (noteStateCall_logOk m).trans (hpays.logOk.trans ((ih nofun).trans hpays'.logOk))
    exact (hclosure.trans (stateCommitIgnored_logOk act.head newh m3)).snoc
      (e := .mark (.transacted _ newh)) nofun fun h => h
  | @transactionLoadFails _ m m1 m2 _ _ b _ hpays hfails =>
    cases b with
    | true => exact absurd rfl he
    | false =>
      rw [Machine.closeTx, hfails.log_eq]
      exact (noteStateCall_logOk m).trans hpays.logOk
  | @transactionFails _ m _ _ _ _ _ _ hpays _ ih =>
    exact (noteStateCall_logOk m).trans (hpays.logOk.trans (ih he))
  | @transactionPutFails _ m _ _ _ _ _ _ b _ hpays _ hpays' hfails ih =>
    cases b with
    | true => exact absurd rfl he
    | false =>
      rw [Machine.closeTx, hfails.log_eq]
      exact (noteStateCall_logOk m).trans (hpays.logOk.trans ((ih nofun).trans hpays'.logOk))
  | register _ hext hes =>
    refine .of_quiet hext.log_eq fun e hmem => ?_
    obtain ⟨addr, id, fresh, rfl⟩ := hes e hmem
    exact ⟨nofun, fun h => h⟩
  | call hstarts henters _ ih => exact hstarts.logOk.trans (henters.log_eq ▸ ih nofun)
  | callErrs hstarts henters _ ih => exact hstarts.logOk.trans (henters.log_eq ▸ ih he)
  | callPanics hstarts henters _ ih => exact hstarts.logOk.trans (henters.log_eq ▸ ih he)
  | callDies hstarts hext hes =>
    rcases hes with rfl | ⟨rfl, -⟩
    · exact hstarts.logOk.trans (.of_quiet hext.log_eq fun _ he => absurd he not_mem_nil)
    · exact absurd rfl he
  | code _ ih | preamble _ ih => exact ih he

variable {b : Behaviour} {cmsg : ChainMsg} {vm vm' : VM} {ret : ApplyRet} {es : List Event}

lemma applyMessage_logOk (h : applyMessage env b cmsg vm = (.ok ret, vm')) :
    LogOk vm.log vm'.log := by
  rcases applyMessage_does (N := True) env b cmsg vm (absurd trivial) with
    ⟨es, hlog, hes⟩ | ⟨id, act, start, sub, e, sub', cs, -, hstarted, htop, hdoes, hcs, hlog, hend⟩
  · rw [h] at hlog hes
    rcases hes with rfl | ⟨-, err, herr⟩
    · exact .of_quiet hlog nofun
    · cases herr
  · have hordinary : e ≠ .failed true := by
      grind
    rw [h] at hlog
    rw [hlog, ← htop.log_eq hstarted]
    exact (hdoes.logOk hordinary).trans (hcs.logOk _)

/-- Where `ApplyMessage` comes back with a receipt, no fatal error came up at any depth exactly if
every state commit found the head it expected and the store did not fail on a read of
`TotalFilCircSupply` or of a system call. -/
theorem applyMessage_fatal_iff (h : applyMessage env b cmsg vm = (.ok ret, vm'))
    (hlog : vm'.log = vm.log ++ es) : .fatal ∉ es ↔ ∀ e ∈ es, ¬e.DropsFatal := by
  obtain ⟨es', hlog', hbalanced⟩ := applyMessage_logOk h
  obtain rfl : es' = es := by grind [append_cancel_left]
  refine (not_congr hbalanced).trans ?_
  simp only [not_exists, not_and]

def sampleTransact : Behaviour where
  ctor := .abort .other
  method := .validateImmediateCallerAcceptAny
    (.transaction (some .found) (.ret (.block ⟨[9]⟩ 1)) (.ret (.bytes [])))

def sampleRecreate : Behaviour where
  ctor := .abort .other
  method := .validateImmediateCallerAcceptAny (.stateCreate (.block ⟨[9]⟩ 1) (.ret (.bytes [])))

theorem sampleTransact_fatal_free :
    ∃ ret vm', applyMessage sampleEnv sampleTransact sampleMsg sampleVM = (.ok ret, vm') ∧
      ret.receipt.exitCode = 0 ∧ (∀ e ∈ vm'.log, ¬e.DropsFatal) ∧ .fatal ∉ vm'.log := by
  set out := applyMessage sampleEnv sampleTransact sampleMsg sampleVM
  have hret : out.1 = .ok ⟨⟨0, [], 1278405⟩, none, 0⟩ := by decide +kernel
  have hok : out = (.ok ⟨⟨0, [], 1278405⟩, none, 0⟩, out.2) := Prod.ext hret rfl
  have hquiet : ∀ e ∈ out.2.log, ¬e.DropsFatal := by decide +kernel
  have hlog : out.2.log = sampleVM.log ++ out.2.log := (nil_append out.2.log).symm
  exact ⟨_, _, hok, rfl, hquiet, (applyMessage_fatal_iff hok hlog).mpr hquiet⟩

/-- The method verifies a consensus fault of a miner whose state the store fails to read. -/
def sampleVerify : Behaviour where
  ctor := .abort .other
  method := .validateImmediateCallerAcceptAny
    (.syscall .verifyConsensusFault (.blockSigs [⟨.id 101, .failed, .found, .id 100, .found⟩])
      fun _ => .ret (.bytes []))

/-- The message comes back with exit code 0 although a fatal error came up. -/
def SwallowsFatal (b : Behaviour) : Prop :=
  (applyMessage sampleEnv b sampleMsg sampleVM).1.toOption.map (·.receipt.exitCode) = some 0 ∧
    Event.fatal ∈ (applyMessage sampleEnv b sampleMsg sampleVM).2.log
deriving Decidable

/-- The commit of `Create` fails fatally, and so does the read of `VerifyBlockSig`. -/
theorem sampleRecreate_swallows_fatal :
    SwallowsFatal sampleRecreate ∧ SwallowsFatal sampleVerify := by
  decide +kernel

end Lotus
