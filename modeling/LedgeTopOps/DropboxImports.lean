import LedgeTopOps.FileTransferRuns

namespace LedgeTopOps.DropboxImports
open FileTransfers StepRuns

inductive ConflictMode where
  | autorename | skip | replace | fail
  deriving DecidableEq

structure Source where
  destinationKey : String
  size : Nat

-- `item` is this job's import item in the object's metadata, none in an object of others; `moved` marks the place of
-- an object that was moved away.
structure Object where
  (etag size : Nat)
  item : Option Nat := none
  moved : Bool := false

structure Publication where
  (item size : Nat)
  replaced : Option Object

-- An item's staging key is its own, in a reserved folder that no destination key can name. `published` is a history.
structure Bucket where
  objects : String → Option Object
  staging : Nat → Option Object
  etags : Nat
  published : List Publication

structure Destination where
  key : String
  baseline : Option Nat
  published : Option Object

inductive Resolution where
  | skip
  | at (destination : Destination)
  | refused (message : String)

-- `staging` is the source's RetryableImportError, `dropbox` its DropboxImportError.
inductive ImportError where
  | staging (message : String)
  | dropbox (status : Nat)
  | other (message : String)

inductive Answer where
  | ok
  | failed (committed : Bool) (message : String)
  | received (length : Nat)
  | refused (status : Nat)

def maxBytes : Nat := 500 * 1024 * 1024 * 1024
def minPartSize : Nat := 8 * 1024 * 1024
def maxPartSize : Nat := 5 * 1024 * 1024 * 1024
def targetMaxParts : Nat := 9999
def partSizeGranularity : Nat := 1024 * 1024
def ceilDiv (n d : Nat) : Nat := (n + d - 1) / d

def dropboxImportPartSize (totalSize : Nat) : Option Nat :=
  let required := ceilDiv totalSize targetMaxParts
  let rounded := ceilDiv required partSizeGranularity * partSizeGranularity
  let partSize := max minPartSize rounded
  if maxPartSize < partSize then none else some partSize

def importedByItem (object : Option Object) (itemId : Nat) : Bool :=
  match object with
  | some object => object.item = some itemId
  | none => false

def logicallyAbsent (object : Option Object) : Bool :=
  match object with
  | some object => object.moved
  | none => true

-- The numbered names of autorename: "stem (2).ext" to "stem (1001).ext".
def numbered (destKey : String) (i : Nat) : String :=
  let chars := destKey.toList
  let name := (chars.reverse.takeWhile (· ≠ '/')).reverse
  let parent := chars.take (chars.length - name.length)
  let ext := if name.contains '.' then '.' :: (name.reverse.takeWhile (· ≠ '.')).reverse else []
  let stem := name.take (name.length - ext.length)
  String.ofList (parent++stem++[' ','(']++(toString i).toList++[')']++ext)

def candidates (destKey : String) : List String := (List.range 1000).map fun i => numbered destKey (i + 2)

def firstFree (objects : String → Option Object) (itemId : Nat) : List String → Resolution
  | [] => .refused "destination-unavailable"
  | candidate :: rest =>
    let object := objects candidate
    if importedByItem object itemId then .at ⟨candidate,object.map Object.etag,object⟩
    else if logicallyAbsent object then .at ⟨candidate,object.map Object.etag,none⟩
    else firstFree objects itemId rest

def resolveDestinationKeyForItem (objects : String → Option Object) (destKey : String) (conflictMode : ConflictMode) (itemId : Nat) :
    Resolution :=
  let existing := objects destKey
  if importedByItem existing itemId then .at ⟨destKey,existing.map Object.etag,existing⟩
  else if conflictMode = .skip && !logicallyAbsent existing then .skip
  else if conflictMode = .fail && !logicallyAbsent existing then .refused "destination-exists"
  else if conflictMode = .replace || logicallyAbsent existing then .at ⟨destKey,existing.map Object.etag,none⟩
  else firstFree objects itemId (candidates destKey)

-- importOneFile between its calls. From `cancelled` to `verify` an error is caught and
-- goes through `abort`, `cleanup` and `cleaned`.
inductive Place where
  | resolve
  | findStaged
  | dropStaged
  | checkStaged
  | putEmpty (destination : Destination)
  | create (destination : Destination)
  | cancelled (destination : Destination) (offset : Nat)
  | download (destination : Destination) (offset : Nat)
  | upload (destination : Destination) (offset : Nat)
  | checkpointItem (destination : Destination) (offset : Nat)
  | checkpointJob (destination : Destination) (offset : Nat)
  | complete (destination : Destination)
  | fetch (destination : Destination) (etag : Nat)
  | publish (destination : Destination) (staged : Object)
  | remove
  | verify
  | abort (error : ImportError)
  | cleanup (error : ImportError)
  | cleaned (error : ImportError)

def Bucket.stage (bucket : Bucket) (id : Nat) (object : Option Object) : Bucket :=
  { bucket with staging := fun other => if other = id then object else bucket.staging other, etags := bucket.etags + 1 }

-- `onlyIf`: the object of the baseline is still there, or there is still none.
def Bucket.unchanged (bucket : Bucket) (destination : Destination) : Bool :=
  (bucket.objects destination.key).map Object.etag = destination.baseline

def Bucket.put (bucket : Bucket) (destination : Destination) (itemId size : Nat) : Bucket :=
  { bucket with
    objects := fun key => if key = destination.key then some { etag := bucket.etags, size := size, item := some itemId } else bucket.objects key
    etags := bucket.etags + 1
    published := ⟨itemId,size,bucket.objects destination.key⟩ :: bucket.published }

def stagingCleanupFailed : ImportError := .staging "dropbox-staging-cleanup-failed"
def destinationChanged : ImportError := .other "destination-changed-before-publication"

def simple (bucket : Bucket) (effect : Bucket → Bucket) (next : Progress Place ImportError) (throws : String → Progress Place ImportError) :
    Answer → Option (Bucket × Progress Place ImportError)
  | .ok => some (effect bucket,next)
  | .failed committed message => some (if committed then effect bucket else bucket,throws message)
  | _ => none

def raise (message : String) : Progress Place ImportError := .raised (.other message)
def throwInside (error : ImportError) : Progress Place ImportError := .at (.abort error)
def caught (message : String) : Progress Place ImportError := throwInside (.other message)

-- The conditional put of the source answers null where the condition fails.
def publishCall (bucket : Bucket) (destination : Destination) (itemId size : Nat) (next : Progress Place ImportError)
    (changed : Progress Place ImportError) (throws : String → Progress Place ImportError) (answer : Answer) :
    Option (Bucket × Progress Place ImportError) :=
  if bucket.unchanged destination then simple bucket (fun b => b.put destination itemId size) next throws answer
  else simple bucket id changed throws answer

def afresh (destination : Destination) (size : Nat) : Progress Place ImportError :=
  if maxBytes < size then raise "file-too-large"
  else if size = 0 then .at (.putEmpty destination)
  else match dropboxImportPartSize size with
    | some _ => .at (.create destination)
    | none => raise "file-too-large-for-multipart"

def part (destination : Destination) (offset size : Nat) : Progress Place ImportError :=
  if offset < size then .at (.cancelled destination offset) else .at (.complete destination)

def partLength (offset size : Nat) : Nat := min ((dropboxImportPartSize size).getD 0) (size - offset)

def resolved (resolution : Resolution) (size : Nat) : Progress Place ImportError :=
  match resolution with
  | .skip => .finished false
  | .refused message => raise message
  | .at destination => match destination.published with
    | some _ => .at .findStaged
    | none => afresh destination size

def importOneFile (conflictMode : ConflictMode) (jobCancelled : Bool) (bucket : Bucket) (item : Item Source) (place : Place)
    (answer : Answer) : Option (Bucket × Progress Place ImportError) :=
  let size := item.source.size
  let staged := bucket.staging item.id
  let drop : Bucket → Bucket := fun b => b.stage item.id none
  match place with
  | .resolve => simple bucket id (resolved (resolveDestinationKeyForItem bucket.objects item.source.destinationKey conflictMode item.id) size) raise answer
  | .findStaged => simple bucket id (if staged.isSome then .at .dropStaged else .finished false) raise answer
  | .dropStaged => simple bucket drop (.at .checkStaged) raise answer
  | .checkStaged => simple bucket id (if staged.isSome then .raised stagingCleanupFailed else .finished false) raise answer
  | .putEmpty destination => publishCall bucket destination item.id 0 (.finished false) (.raised destinationChanged) raise answer
  | .create destination => simple bucket id (part destination 0 size) raise answer
  | .cancelled destination offset => simple bucket id
      (if jobCancelled then throwInside (.other "cancelled") else .at (.download destination offset)) caught answer
  | .download destination offset => match answer with
    | .received length => some (bucket,if length = partLength offset size then .at (.upload destination offset)
        else throwInside (.other "dropbox-short-read"))
    | .refused status => some (bucket,throwInside (.dropbox status))
    | .failed _ message => some (bucket,caught message)
    | .ok => none
  | .upload destination offset => simple bucket id (.at (.checkpointItem destination offset)) caught answer
  | .checkpointItem destination offset => simple bucket id (.at (.checkpointJob destination offset)) caught answer
  | .checkpointJob destination offset => simple bucket id (part destination (offset + partLength offset size) size) caught answer
  | .complete destination => simple bucket (fun b => b.stage item.id (some { etag := b.etags, size := size, item := some item.id }))
      (.at (.fetch destination bucket.etags)) caught answer
  | .fetch destination etag => simple bucket id (match staged with
      | some object => if object.etag = etag then .at (.publish destination object) else throwInside (.staging "dropbox-staging-read-failed")
      | none => throwInside (.staging "dropbox-staging-read-failed")) caught answer
  | .publish destination object => publishCall bucket destination item.id object.size (.at .remove) (throwInside destinationChanged) caught answer
  | .remove => simple bucket drop (.at .verify) caught answer
  | .verify => simple bucket id (if staged.isSome then throwInside stagingCleanupFailed else .finished false) caught answer
  -- The abort is best effort: its own error is dropped.
  | .abort error => simple bucket id (.at (.cleanup error)) (fun _ => .at (.cleanup error)) answer
  | .cleanup error => simple bucket drop (.at (.cleaned error)) raise answer
  | .cleaned error => simple bucket id (.raised (if staged.isSome then stagingCleanupFailed else error)) raise answer

def permanent : List String :=
  ["cancelled","file-too-large","file-too-large-for-multipart","destination-exists","destination-unavailable", "destination-changed-before-publication"]

def dropboxRetryable (status : Nat) : Bool := status = 429 || 500 ≤ status

def ImportError.retryable : ImportError → Bool
  | .staging _ => true
  | .dropbox status => dropboxRetryable status
  | .other message => !permanent.contains message

def ImportError.again : ImportError → Bool
  | .dropbox status => dropboxRetryable status
  | _ => false

def importer (conflictMode : ConflictMode) : Mover Source Bucket Place ImportError String Answer Empty where
  enter _ := .resolve
  move := importOneFile conflictMode
  fault := .other
  retryable := ImportError.retryable
  again := ImportError.again
  others _ change := change.elim

def importOptions : Options where
  credentialFirst := true
  asksShare := false
  recounts := false
  revokes := true
  retries := false

abbrev ImportWorld := World Source Bucket Place ImportError
abbrev ImportAction := Action Source String Answer Empty

def runDropboxImportJob (conflictMode : ConflictMode) (w : ImportWorld) (action : ImportAction) (v : ImportWorld) : Prop :=
  next importOptions (importer conflictMode) w action = some v

structure Untouched (bucket : Bucket) : Prop where
  objects : ∀ key object, bucket.objects key = some object → object.item = none
  staging : ∀ id, bucket.staging id = none
  published : bucket.published = []
end LedgeTopOps.DropboxImports
