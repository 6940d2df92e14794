import LedgeTopOps.FileTransferRuns

namespace LedgeTopOps.CloudTransfers
open FileTransfers StepRuns

-- The codes of the failure table, which every error is classified to.
inductive FailureCode where
  | authorizationRequired | authorizationExpired | shareRevoked | emptySelection | fileLimit | byteLimit
  | sourceChanged | sourceMissing | providerRateLimited | providerUnavailable | providerQuota
  | destinationUnavailable | cancelled | transferFailed

def FailureCode.retryable : FailureCode → Bool
  | .providerRateLimited | .providerUnavailable | .transferFailed => true
  | _ => false

-- `adapter.transfer` with the credential it needs: it copies the file, finds that it
-- may skip it, or raises.
inductive Provided where
  | transferred (skipped : Bool)
  | raised (code : FailureCode)

def adapter : Mover σ Unit Unit FailureCode FailureCode Provided Empty where
  enter _ := ()
  move _ _ _ _ answer := some ((),match answer with
    | .transferred skipped => .finished skipped
    | .raised code => .raised code)
  fault := id
  retryable := FailureCode.retryable
  again := FailureCode.retryable
  others _ change := change.elim

def cloudOptions : Options where
  credentialFirst := false
  asksShare := true
  recounts := true
  revokes := false
  retries := true

abbrev CloudWorld (σ : Type) := World σ Unit Unit FailureCode
abbrev CloudAction (σ : Type) := Action σ FailureCode Provided Empty

def runCloudTransferJob (w : CloudWorld σ) (action : CloudAction σ) (v : CloudWorld σ) : Prop :=
  next cloudOptions adapter w action = some v

section
variable {σ : Type} {w v : CloudWorld σ} {action : CloudAction σ} {actions : List (CloudAction σ)}

-- A selection's batch finds its job queued, an outcome an item that has none, `completed` no running item; a retry
-- renews no counted failure.
abbrev Spared (w : CloudWorld σ) (action : CloudAction σ) : Prop := FileTransfers.spared adapter w action = true

theorem transfers_truthful (run : Runs (Guarded runCloudTransferJob Spared) (initial ()) actions w) :
    Truthful w.tables ∧ ∀ action v, Guarded runCloudTransferJob Spared w action v → Kept w.tables v.tables :=
  have spared : Runs (SparedStep cloudOptions adapter) (initial ()) actions w := run
  have single : Single (fun _ _ _ => True) w := run_single Carried.nothing trivial spared
  ⟨single.ledger.truthful,fun _ _ taken => (next_single Carried.nothing single taken.2 taken.1).2⟩
end

def arrive (actions : List (CloudAction String)) : Option (CloudWorld String) := follow (next cloudOptions adapter) (initial ()) actions

def selected : List (CloudAction String) :=
  [.reply 0 .ok,.reply 0 (.sources ["deliverable.tif"]),.record 0,.reply 0 .ok,.record 0,.reply 0 .ok,.reply 0 .ok]

def chosen : List (CloudAction String) := [.reply 0 .ok,.reply 0 (.active true)]
def attempted (answer : Provided) : List (CloudAction String) := [.reply 0 .ok,.reply 0 .ok,.reply 0 (.moved answer),.reply 0 .ok]
def finished : List (CloudAction String) := [.reply 0 .ok,.reply 0 .ok,.reply 0 .ok,.record 0]
def copied : List (CloudAction String) := selected++chosen++attempted (.transferred false)++[.record 0]++finished
def copiedWorld : CloudWorld String := (arrive copied).getD (initial ())

theorem transfers_truthful_example : copiedWorld.tables.job.status = .completed ∧ copiedWorld.tables.job.succeeded = 1 ∧ Truthful copiedWorld.tables :=
  have run : Runs (Guarded runCloudTransferJob Spared) (initial ()) copied copiedWorld := Runs.of_checked rfl
  ⟨rfl,rfl,(transfers_truthful run).1⟩

def repeated : List (CloudAction String) :=
  selected++chosen++attempted (.transferred false)++[.again 0]++attempted (.transferred false)

def undone : List (CloudAction String) :=
  selected++chosen++attempted (.transferred false)++[.again 0,.reply 0 .ok,.reply 0 .ok,.reply 0 (.moved (.raised .shareRevoked))]

def abandoned : List (CloudAction String) :=
  selected++chosen++[.reply 0 .ok,.restart 0,.reply 0 .ok,.reply 0 .ok,.reply 0 .ok]++finished

def renewed : List (CloudAction String) :=
  selected++chosen++attempted (.raised .shareRevoked)++[.record 0]++finished++[.retry,.reply 1 .ok,.reply 1 .ok]

theorem transfers_untruthful : (∃ w, arrive repeated = some w ∧ w.tables.job.succeeded = 2 ∧ w.tables.job.processed = 2 ∧ w.tables.job.fileCount = 1 ∧
      ¬Truthful w.tables) ∧ (∃ w v, arrive undone = some w ∧ runCloudTransferJob w (.reply 0 .ok) v ∧ ¬Kept w.tables v.tables) ∧
    (∃ w, arrive abandoned = some w ∧ w.tables.job.status = .completed ∧ w.tables.items.map (·.status) = [.cancelled] ∧ ¬Truthful w.tables) ∧
    (∃ w, arrive renewed = some w ∧ w.tables.job.failed = 1 ∧ w.tables.items.map (·.status) = [.retrying] ∧ ¬Truthful w.tables) := by
  refine ⟨⟨_,rfl,rfl,rfl,rfl,fun truthful => ?_⟩,⟨_,_,rfl,rfl,fun kept => ?_⟩,⟨_,rfl,rfl,rfl,fun truthful => ?_⟩,⟨_,rfl,rfl,rfl,fun truthful => ?_⟩⟩
  · exact absurd truthful.succeeded (by decide)
  · obtain ⟨_,member,_,same⟩ := kept ⟨0,0,"deliverable.tif",.completed,1⟩ (.head _) rfl
    cases List.mem_singleton.mp member
    cases same
  · exact absurd (truthful.completed rfl _ (.head _)) (by decide)
  exact absurd truthful.failed (by decide)
end LedgeTopOps.CloudTransfers
