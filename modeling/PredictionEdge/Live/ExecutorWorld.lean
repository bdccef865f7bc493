import PredictionEdge.Live.Executor
import PredictionEdge.Live.RecoverySafety

/-!
# Executors over one journal

Any number of calls of the live executor, of any number of dispatches, over one journal. A call
goes on from answer to answer; others go on in between. A call can be dropped at any question and
a crash drops all of them, together with every capability that was handed out: what is left is
the journal, and recovery starts from what the journal says.
-/

namespace PredictionEdge

def PreparedLiveOrder.key {Submission : Type} (order : PreparedLiveOrder Submission) : DispatchKey :=
  (order.accountId, order.identity.dispatchId)

def LiveOrderRequest.key (request : LiveOrderRequest) : DispatchKey :=
  (request.target.accountId, request.identity.dispatchId)

/-- The capability that a first phase hands out. -/
def LivePrepareResult.capability {Submission : Type} :
    LivePrepareResult Submission → Option (PreparedLiveOrder Submission)
  | .prepared order => some order
  | .terminal _ => none

/-- The journal, and each submission with its dispatch and the journal it found. -/
structure ExecutorLog where
  journal : List LiveJournalEvent
  posts : List (DispatchKey × List LiveJournalEvent)

/-- What a question of a call for a dispatch, with its answer, does. -/
inductive ExecutorAct {Submission : Type} (key : DispatchKey) (log : ExecutorLog) :
    (q : ExecutorQuestion Submission) → ExecutorAnswer Submission q → ExecutorLog → Prop
  | appended (accountId timestamp payload) :
      ExecutorAct key log (.append accountId timestamp payload)
        (Except.ok (appended log.journal accountId timestamp payload))
        { log with journal := log.journal ++ [PredictionEdge.appended log.journal accountId timestamp payload] }
  | notAppended (accountId timestamp payload) (error : LiveJournalError) :
      ExecutorAct key log (.append accountId timestamp payload) (Except.error error) log
  /-- The record reached the file, but the append was not reported as done. -/
  | unpublished (accountId timestamp payload) (error : LiveJournalError) :
      ExecutorAct key log (.append accountId timestamp payload) (Except.error error)
        { log with journal := log.journal ++ [PredictionEdge.appended log.journal accountId timestamp payload] }
  | accountRead (negRisk answer) : ExecutorAct key log (.readBalanceAndAllowance negRisk) answer log
  | signed (request answer) : ExecutorAct key log (.prepare request) answer log
  | posted (submission wallClockDeadline answer) :
      ExecutorAct key log (.postOnce submission wallClockDeadline) answer
        { log with posts := log.posts ++ [(key, log.journal)] }
  | lookedUp (orderHash answer) :
      ExecutorAct key log (.reconcileAndCancelByOrderHash orderHash) answer log

/-! ## Worlds -/

/-- A call that is running for a dispatch. -/
structure ExecutorCall (Submission : Type) where
  key : DispatchKey
  program : ExecutorProgram Submission (Option (PreparedLiveOrder Submission))

structure ExecutorWorld (Submission : Type) where
  log : ExecutorLog
  /-- The dispatches that were given to `prepare`. -/
  begun : List DispatchKey
  running : List (ExecutorCall Submission)
  capabilities : List (PreparedLiveOrder Submission)

namespace ExecutorWorld

variable {Submission : Type}

def start : ExecutorWorld Submission := ⟨⟨[], []⟩, [], [], []⟩

/-- The dispatches that a call or a capability stands for. -/
def owners (w : ExecutorWorld Submission) : List DispatchKey :=
  w.running.map ExecutorCall.key ++ w.capabilities.map PreparedLiveOrder.key

end ExecutorWorld

/-- What the calls are given, the same for all of them. -/
structure ExecutorSetting where
  recovery : RecoveryLibraries
  classifyPostResponse : RawHttpResponse → Option LivePostClassification

section

variable {Submission : Type} (setting : ExecutorSetting)

def prepareCall (request : LiveOrderRequest) (observedAccount : Option LiveVenueAccountState)
    (clock : Nat → OffsetDateTime) : ExecutorCall Submission :=
  ⟨request.key, do
    let result ← prepareWithOptionalAccount setting.recovery.account setting.recovery.arith request
      observedAccount clock
    pure result.capability⟩

def resumeCall (entry : ApprovedAdmissionRecoveryEntry) (currentMode : LiveModeSnapshot)
    (currentBinding : CredentialBindingIdentity) (currentAccountState : LiveVenueAccountState)
    (clock : Nat → OffsetDateTime) : ExecutorCall Submission :=
  ⟨entry.key, do
    let result ← resumeApprovedAdmissionWithClock setting.recovery.account setting.recovery.arith
      entry.accountId entry.admission currentMode currentBinding currentAccountState clock
    pure result.capability⟩

def submitCall (order : PreparedLiveOrder Submission) (clock : Nat → OffsetDateTime)
    (wallClockDeadline : Option OffsetDateTime) : ExecutorCall Submission :=
  ⟨order.key, do
    let _ ← submitWithClockAndDeadline setting.recovery.account setting.classifyPostResponse order
      clock wallClockDeadline
    pure none⟩

/-- `terminalize_prepared`, with a control observation or without one. -/
def terminalizeCall (order : PreparedLiveOrder Submission) (now : OffsetDateTime)
    (failure : LiveOrderPreparationFailure) (control : Option LiveControlObservation) :
    ExecutorCall Submission :=
  ⟨order.key, do
    let _ ← match control with
      | none => terminalizePrepared order now failure
      | some control => terminalizePreparedWithControl order now failure control
    pure none⟩

/-- A record that a call or a capability has nothing to do with, and that opens nothing. -/
def Unrelated (w : ExecutorWorld Submission) (event : LiveJournalEvent) : Prop :=
  ∀ key fact, factOf setting.recovery event = some (key, fact) →
    fact.isEvaluated = false ∧ fact.isPrepared = false ∧ key ∉ w.owners

/--
One step of the executors. With `exclusive`, a dispatch is resumed only while no other call of it
is running.
-/
inductive ExecutorStep (exclusive : Bool) : ExecutorWorld Submission → ExecutorWorld Submission → Prop
  | prepare {w} (request : LiveOrderRequest) (observedAccount : Option LiveVenueAccountState)
      (clock : Nat → OffsetDateTime) (hnew : request.key ∉ w.begun) :
      ExecutorStep exclusive w { w with
        begun := request.key :: w.begun
        running := prepareCall setting request observedAccount clock :: w.running }
  | resume {w} {fold : LiveRecoveryFold} (entry : ApprovedAdmissionRecoveryEntry)
      (currentMode : LiveModeSnapshot) (currentBinding : CredentialBindingIdentity)
      (currentAccountState : LiveVenueAccountState) (clock : Nat → OffsetDateTime)
      (hfold : LiveRecoveryFold.ofJournal setting.recovery false w.log.journal = .ok fold)
      (hentry : entry ∈ fold.inventory.approvedAdmissions)
      (hexclusive : exclusive = true → entry.key ∉ w.running.map ExecutorCall.key) :
      ExecutorStep exclusive w { w with
        running := resumeCall setting entry currentMode currentBinding currentAccountState clock
          :: w.running }
  | submit {log begun running before after} (order : PreparedLiveOrder Submission)
      (clock : Nat → OffsetDateTime) (wallClockDeadline : Option OffsetDateTime) :
      ExecutorStep exclusive ⟨log, begun, running, before ++ order :: after⟩
        ⟨log, begun, submitCall setting order clock wallClockDeadline :: running, before ++ after⟩
  | terminalize {log begun running before after} (order : PreparedLiveOrder Submission)
      (now : OffsetDateTime) (failure : LiveOrderPreparationFailure)
      (control : Option LiveControlObservation) :
      ExecutorStep exclusive ⟨log, begun, running, before ++ order :: after⟩
        ⟨log, begun, terminalizeCall order now failure control :: running, before ++ after⟩
  | answered {log log' begun before after capabilities key} {q : ExecutorQuestion Submission} {rest}
      {answer : ExecutorAnswer Submission q} (h : ExecutorAct key log q answer log') :
      ExecutorStep exclusive ⟨log, begun, before ++ ⟨key, .ask q rest⟩ :: after, capabilities⟩
        ⟨log', begun, before ++ ⟨key, rest answer⟩ :: after, capabilities⟩
  /-- A call returns; an error hands out nothing. -/
  | returned {log begun before after capabilities key result} :
      ExecutorStep exclusive ⟨log, begun, before ++ ⟨key, .done result⟩ :: after, capabilities⟩
        ⟨log, begun, before ++ after, (result.toOption.bind id).toList ++ capabilities⟩
  | callDropped {log begun before call after capabilities} :
      ExecutorStep exclusive ⟨log, begun, before ++ call :: after, capabilities⟩
        ⟨log, begun, before ++ after, capabilities⟩
  | capabilityDropped {log begun running before order after} :
      ExecutorStep exclusive ⟨log, begun, running, before ++ order :: after⟩
        ⟨log, begun, running, before ++ after⟩
  | crashed {w} : ExecutorStep exclusive w { w with running := [], capabilities := [] }
  /-- Another part of the service writes a record that recovery takes. -/
  | elsewhere {w} {fold fold' : LiveRecoveryFold} (event : LiveJournalEvent)
      (hfold : LiveRecoveryFold.ofJournal setting.recovery false w.log.journal = .ok fold)
      (happly : fold.apply setting.recovery false event = .ok fold')
      (hunrelated : Unrelated setting w event) :
      ExecutorStep exclusive w { w with
        log := { w.log with journal := w.log.journal ++ [event] } }

/-- What executors, from an empty journal, can lead to. -/
def ExecutorReachable (exclusive : Bool) : ExecutorWorld Submission → Prop :=
  Relation.ReflTransGen (ExecutorStep setting exclusive) .start

end

end PredictionEdge
