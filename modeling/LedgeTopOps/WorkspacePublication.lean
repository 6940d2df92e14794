import LedgeTopOps.ClosedCodec
import LedgeTopOps.TextPatterns

namespace LedgeTopOps.WorkspacePublication
open ClosedCodec TextPatterns
open List (replicate)

def ascii (text : String) : Text := text.toList.map fun c => UInt16.ofNat c.toNat

-- JSON.stringify of the values a publication is made of.
def isHigh (unit : UInt16) : Bool := decide (0xD800 ≤ unit) && decide (unit < 0xDC00)
def isLow (unit : UInt16) : Bool := decide (0xDC00 ≤ unit) && decide (unit < 0xE000)
def hexDigit (n : Nat) : UInt16 := UInt16.ofNat (if n < 10 then 48+n else 87+n)

def unicodeEscape (unit : UInt16) : Text :=
  let n := unit.toNat
  ascii "\\u"++[hexDigit (n/4096),hexDigit (n/256%16),hexDigit (n/16%16),hexDigit (n%16)]

def escape (unit : UInt16) : Text :=
  if unit = 0x22 then ascii "\\\""
  else if unit = 0x5C then ascii "\\\\"
  else if unit = 0x08 then ascii "\\b"
  else if unit = 0x0C then ascii "\\f"
  else if unit = 0x0A then ascii "\\n"
  else if unit = 0x0D then ascii "\\r"
  else if unit = 0x09 then ascii "\\t"
  else if unit < 0x20 ∨ isHigh unit ∨ isLow unit then unicodeEscape unit
  else [unit]

def escapes : Text → Text
  | [] => []
  | [unit] => escape unit
  | high :: low :: rest =>
    if isHigh high && isLow low then high :: low :: escapes rest else escape high++escapes (low :: rest)

def quote (text : Text) : Text := ascii "\""++escapes text++ascii "\""

mutual
def stringify : JsValue → Text
  | .null => ascii "null"
  | .other => ascii "null"
  | .bool value => ascii (if value then "true" else "false")
  | .number value => ascii (toString value)
  | .string text => quote text
  | .array _ items => ascii "["++stringifyItems items++ascii "]"
  | .object _ members => ascii "\x7b"++stringifyMembers members++ascii "\x7d"

def stringifyItems : List JsValue → Text
  | [] => []
  | [item] => stringify item
  | item :: rest => stringify item++ascii ","++stringifyItems rest

def stringifyMembers : List (Text × JsValue) → Text
  | [] => []
  | [(name,value)] => quote name++ascii ":"++stringify value
  | (name,value) :: rest => quote name++ascii ":"++stringify value++ascii ","++stringifyMembers rest
end

-- Array.from(text): the code points, with a lone surrogate for itself.
def codePoints : Text → List Nat
  | [] => []
  | [unit] => [unit.toNat]
  | high :: low :: rest =>
    if isHigh high && isLow low then (0x10000+(high.toNat-0xD800)*0x400+(low.toNat-0xDC00)) :: codePoints rest
    else high.toNat :: codePoints (low :: rest)

def surrogate (point : Nat) : Bool := decide (0xD800 ≤ point) && decide (point < 0xE000)

-- A lone surrogate is encoded as U+FFFD, in three bytes.
def utf8Width (point : Nat) : Nat := if point < 0x80 then 1 else if point < 0x800 then 2 else if point < 0x10000 then 3 else 4
def utf8Length (text : Text) : Nat := (codePoints text).foldl (fun bytes point => bytes+utf8Width point) 0
def pattern (classes : List Char → Bool) (text : Text) : Bool := classes (text.map fun unit => Char.ofNat unit.toNat)
def before (left right : Text) : Bool := decide (units left < units right)

section
variable (control : Nat → Bool)

def uuidText (text : Text) : Bool := pattern (TextPatterns.uuid (exactly '4') (among ['8','9','a','b'])) text
def sha256Text (text : Text) : Bool := pattern (repeated 64 64 lowerHex) text
def publicIdText (text : Text) : Bool := pattern (repeated 32 32 lowerHex) text

def sourceIdText (text : Text) : Bool :=
  pattern (led "project-alpha:".toList fun rest => match rest with
    | [] => false
    | c :: more => lowerAlphanumeric c && repeated 0 63 (fun c => lowerAlphanumeric c || c == '_' || c == '-') more) text

-- The bytes decode to the text: no lone surrogate, and no byte order mark to strip.
def permanentIdText (maximum : Nat) (text : Text) : Bool :=
  decide (text ≠ []) && decide ((codePoints text).length ≤ maximum) && !(codePoints text).any control
    && decide (utf8Length text ≤ maximum*4) && !(codePoints text).any surrogate && decide (text.head? ≠ some 0xFEFF)

def whitespace : List UInt16 :=
  [9,10,11,12,13,32,0xA0,0x1680,0x2000,0x2001,0x2002,0x2003,0x2004,0x2005,0x2006,0x2007,0x2008,0x2009,0x200A,0x2028,0x2029, 0x202F,0x205F,0x3000,0xFEFF]

def trimmed (text : Text) : Bool := !text.head?.any whitespace.contains && !text.getLast?.any whitespace.contains
def controlUnit (unit : UInt16) : Bool := decide (unit < 0x20) || decide (unit = 0x7F)

def boundedTextText (maximum : Nat) (text : Text) : Bool :=
  decide (1 ≤ text.length) && decide (text.length ≤ maximum) && trimmed text && !text.any controlUnit

def maxSignedInt64 : Text := ascii "9223372036854775807"

def decimalText (positive : Bool) (text : Text) : Bool :=
  pattern (fun digits => (!positive && digits == ['0']) || match digits with
    | [] => false
    | c :: rest => decimal c && c != '0' && repeated 0 18 decimal rest) text
    && (decide (text.length < maxSignedInt64.length)
      || decide (text.length = maxSignedInt64.length) && !before maxSignedInt64 text)

def number (text : Text) : Nat := text.foldl (fun n unit => n*10+(unit.toNat-48)) 0
def part (text : Text) (start length : Nat) : Nat := number ((text.drop start).take length)

def daysInMonth (year month : Nat) : Nat :=
  if month = 2 then (if year % 4 = 0 ∧ (year % 100 ≠ 0 ∨ year % 400 = 0) then 29 else 28)
  else if month = 4 ∨ month = 6 ∨ month = 9 ∨ month = 11 then 30 else 31

def dateShape : List (Char → Bool) :=
  replicate 4 decimal++[exactly '-']++replicate 2 decimal++[exactly '-']++replicate 2 decimal

def timeShape : List (Char → Bool) :=
  dateShape++[exactly 'T']++replicate 2 decimal++[exactly ':']++replicate 2 decimal++[exactly ':']
    ++replicate 2 decimal++[exactly '.']++replicate 3 decimal++[exactly 'Z']

def realDate (text : Text) : Bool :=
  let month := part text 5 2
  let day := part text 8 2
  decide (1 ≤ month) && decide (month ≤ 12) && decide (1 ≤ day) && decide (day ≤ daysInMonth (part text 0 4) month)

def calendarDateText (text : Text) : Bool := pattern (positional dateShape) text && realDate text

def canonicalTimeText (text : Text) : Bool :=
  pattern (positional timeShape) text && realDate text
    && decide (part text 11 2 ≤ 23) && decide (part text 14 2 ≤ 59) && decide (part text 17 2 ≤ 59)

-- Date.parse of a canonical time: the days since the start of the year zero, and
-- the milliseconds of the day.
def daysBefore (year month : Nat) : Nat :=
  let leapYears := if year = 0 then 0 else (year-1)/4+1-((year-1)/100+1)+((year-1)/400+1)
  year*365+leapYears+((List.range (month-1)).foldl (fun days past => days+daysInMonth year (past+1)) 0)

def parseTime (text : Text) : Nat :=
  (((daysBefore (part text 0 4) (part text 5 2)+part text 8 2)*24+part text 11 2)*60+part text 14 2)*60000 +part text 17 2*1000+part text 20 3

def reservedPrefixSegments : List (List Char) := ["dump".toList,"_ltds".toList,".previews".toList]

-- toLowerCase as far as the reserved names go: no other character lowers to one of their letters.
def lower (unit : UInt16) : Char :=
  let n := unit.toNat
  Char.ofNat (if 65 ≤ n ∧ n ≤ 90 then n+32 else n)

def segments (text : Text) : List Text :=
  text.foldr (fun unit parts => match parts with
    | [] => [[unit]]
    | first_ :: rest => if unit = 0x2F then [] :: first_ :: rest else (unit :: first_) :: rest) [[]]

def forbiddenUnit (unit : UInt16) : Bool :=
  controlUnit unit || (ascii "\\*?[]#%\x7b\x7d").contains unit

def doubled : Text → Bool
  | 0x2F :: 0x2F :: _ => true
  | _ :: rest => doubled rest
  | [] => false

def safePrefixText (text : Text) : Bool :=
  decide (2 ≤ text.length) && decide (text.length ≤ 1000) && trimmed text && !text.any forbiddenUnit
    && decide (text.head? ≠ some 0x2F) && decide (text.getLast? = some 0x2F) && !doubled text
    && (segments text.dropLast).all fun segment => decide (segment ≠ []) && decide (segment ≠ ascii ".")
      && decide (segment ≠ ascii "..") && !reservedPrefixSegments.contains (segment.map lower)
end

inductive HeadState where
  | active
  | revoked
  deriving DecidableEq

def HeadState.name : HeadState → Text
  | .active => ascii "active"
  | .revoked => ascii "revoked"

inductive RecordKind where
  | organization
  | client
  deriving DecidableEq

def RecordKind.name : RecordKind → Text
  | .organization => ascii "organization"
  | .client => ascii "client"

inductive RootKind where
  | organization
  | standaloneClient
  deriving DecidableEq

def RootKind.name : RootKind → Text
  | .organization => ascii "organization"
  | .standaloneClient => ascii "standalone_client"

inductive Lifecycle where
  | notStarted
  | active
  | completed
  | cancelled
  deriving DecidableEq

def Lifecycle.name : Lifecycle → Text
  | .notStarted => ascii "not_started"
  | .active => ascii "active"
  | .completed => ascii "completed"
  | .cancelled => ascii "cancelled"

inductive Permission where
  | serviceHomeRead
  deriving DecidableEq

def Permission.name : Permission → Text
  | .serviceHomeRead => ascii "operations.service_home.read"

structure Fence where
  (sourceId sourceInstanceId applicationId historyEpoch authorizationGeneration publicId revision projectionSha256 : Text)
  deriving DecidableEq

structure DirectoryRecord where
  recordId : Text
  kind : RecordKind
  version : Text
  (parentRecordId relationshipVersion : Option Text)
  displayName : Text
  externalFences : List Fence
  deriving DecidableEq

structure Project where
  (externalProjectId version name : Text)
  lifecycle : Lifecycle
  (plannedStart plannedEnd completedAt : Option Text)
  archived : Bool
  archivedAt : Option Text
  (overdueWarning published : Bool)
  (organizationRecordId clientRecordId : Option Text)
  externalFence : Option Fence
  deriving DecidableEq

structure FolderReservation where
  (reservationId externalProjectId opsFolderProjectId divisionId clientFolderBindingId bindingVersion r2Prefix : Text)
  state : HeadState
  deriving DecidableEq

structure RecipientHead where
  (recipientBindingId enrollmentIntentId targetClientRecordId clientAuthorityId workspaceId issuer subject enrollmentRevision ownershipEpoch : Text)
  grantRevision : Text
  state : HeadState
  lastOperationId : Text
  protocolVersion : Int
  permissions : List Permission
  deriving DecidableEq

structure DeliveryHead where
  (authorityId authorityRevision : Text)
  state : HeadState
  (lastOperationId clientAuthorityId workspaceId recipientBindingId enrollmentIntentId homeOwnershipEpoch homeGrantRevision : Text)
  (folderReservationId folderBindingId : Text)
  expiresAt : Option Text
  deriving DecidableEq

structure Target where
  (targetId targetRevision clientAuthorityId workspaceId : Text)
  rootKind : RootKind
  rootRecordId : Text
  deriving DecidableEq

structure Counts where
  (directoryRecords projects folderReservations recipientAuthorityHeads deliveryAuthorityHeads : Int)
  deriving DecidableEq

structure Snapshot where
  (snapshotId checkpointId sourceSequence : Text)
  complete : Bool
  counts : Counts
  snapshotSha256 : Text
  directoryRecords : List DirectoryRecord
  projects : List Project
  folderReservations : List FolderReservation
  recipientAuthorityHeads : List RecipientHead
  deliveryAuthorityHeads : List DeliveryHead
  deriving DecidableEq

structure ActorProof where
  (staffId verifiedAccessSubject admissionVersion profileVersion grantGeneration verifiedUntil : Text)
  deriving DecidableEq

structure Publication where
  protocol : Text
  protocolVersion : Int
  (action publicationId operationId expectedRevision resultingRevision : Text)
  target : Target
  snapshot : Snapshot
  actorProof : ActorProof
  observedAt : Text
  deriving DecidableEq

def fenceKeys : List Text :=
  ["sourceId","sourceInstanceId","applicationId","historyEpoch","authorizationGeneration","publicId","revision", "projectionSha256"].map ascii
def directoryKeys : List Text :=
  ["recordId","kind","version","parentRecordId","relationshipVersion","displayName","externalFences"].map ascii
def projectKeys : List Text :=
  ["externalProjectId","version","name","lifecycle","plannedStart","plannedEnd","completedAt","archived","archivedAt",
    "overdueWarning","published","organizationRecordId","clientRecordId","externalFence"].map ascii
def folderKeys : List Text :=
  ["reservationId","externalProjectId","opsFolderProjectId","divisionId","clientFolderBindingId","bindingVersion","r2Prefix", "state"].map ascii
def recipientKeys : List Text :=
  ["recipientBindingId","enrollmentIntentId","targetClientRecordId","clientAuthorityId","workspaceId","issuer","subject",
    "enrollmentRevision","ownershipEpoch","grantRevision","state","lastOperationId","protocolVersion","permissions"].map ascii
def deliveryKeys : List Text :=
  ["authorityId","authorityRevision","state","lastOperationId","clientAuthorityId","workspaceId","recipientBindingId",
    "enrollmentIntentId","homeOwnershipEpoch","homeGrantRevision","folderReservationId","folderBindingId","expiresAt"].map ascii
def targetKeys : List Text :=
  ["targetId","targetRevision","clientAuthorityId","workspaceId","rootKind","rootRecordId"].map ascii
def countKeys : List Text :=
  ["directoryRecords","projects","folderReservations","recipientAuthorityHeads","deliveryAuthorityHeads"].map ascii
def snapshotKeys : List Text :=
  ["snapshotId","checkpointId","sourceSequence","complete","counts","snapshotSha256","directoryRecords","projects",
    "folderReservations","recipientAuthorityHeads","deliveryAuthorityHeads"].map ascii
def actorKeys : List Text :=
  ["staffId","verifiedAccessSubject","admissionVersion","profileVersion","grantGeneration","verifiedUntil"].map ascii
def publicationKeys : List Text :=
  ["protocol","protocolVersion","action","publicationId","operationId","expectedRevision","resultingRevision","target",
    "snapshot","actorProof","observedAt"].map ascii

def maximumDirectoryRecords : Nat := 500
def maximumFences : Nat := 8
def maximumProjects : Nat := 1000
def maximumFolderReservations : Nat := 1000
def maximumRecipientHeads : Nat := 1000
def maximumDeliveryHeads : Nat := 2000
def maximumCanonicalBytes : Nat := 1900000
def uuid : Codec Text := .text uuidText
def decimalNumber (positive : Bool) : Codec Text := .text (decimalText positive)
def boundedText (maximum : Nat) : Codec Text := .text (boundedTextText maximum)
def canonicalTime : Codec Text := .text canonicalTimeText
def nullableTime : Codec (Option Text) := canonicalTime.nullable rfl
def calendarDate : Codec (Option Text) := (Codec.text calendarDateText).nullable rfl
def headState : Codec HeadState := .named [.active,.revoked] HeadState.name

def fenceIdentity (fence : Fence) : Text :=
  fence.sourceId++[0]++fence.sourceInstanceId++[0]++fence.applicationId++[0]++fence.historyEpoch++[0]++fence.publicId

def fence : Codec Fence :=
  (Codec.record fenceKeys (.cons (.text sourceIdText) <| .cons uuid <| .cons uuid <| .cons uuid <| .cons (decimalNumber false) <|
      .cons (.text publicIdText) <| .cons (decimalNumber true) <| .cons (.text sha256Text) .nil) (by decide)).as
    (fun (sourceId,sourceInstanceId,applicationId,historyEpoch,authorizationGeneration,publicId,revision,projectionSha256,()) =>
      ⟨sourceId,sourceInstanceId,applicationId,historyEpoch,authorizationGeneration,publicId,revision,projectionSha256⟩)
    (fun x => (x.sourceId,x.sourceInstanceId,x.applicationId,x.historyEpoch,x.authorizationGeneration,x.publicId,x.revision, x.projectionSha256,()))
    (fun _ => rfl)

section
variable (control : Nat → Bool)

def permanentId (maximum : Nat) : Codec Text := .text (permanentIdText control maximum)
def nullablePermanentId : Codec (Option Text) := (permanentId control 191).nullable rfl

def directoryRecord : Codec DirectoryRecord :=
  ((Codec.record directoryKeys (.cons (permanentId control 191) <| .cons (.named [.organization,.client] RecordKind.name) <| .cons (decimalNumber true) <|
      .cons (nullablePermanentId control) <| .cons ((decimalNumber true).nullable rfl) <| .cons (boundedText 240) <|
      .cons (.rows maximumFences fence fun x => [fenceIdentity x]) .nil) (by decide)).as
    (fun (recordId,kind,version,parentRecordId,relationshipVersion,displayName,externalFences,()) =>
      (⟨recordId,kind,version,parentRecordId,relationshipVersion,displayName,externalFences⟩ : DirectoryRecord))
    (fun x => (x.recordId,x.kind,x.version,x.parentRecordId,x.relationshipVersion,x.displayName,x.externalFences,()))
    (fun _ => rfl)).checked fun x =>
      if x.kind = .organization then x.parentRecordId.isNone && x.relationshipVersion.isNone else x.relationshipVersion.isSome

def project : Codec Project :=
  ((Codec.record projectKeys (.cons (permanentId control 191) <| .cons (decimalNumber true) <| .cons (boundedText 150) <|
      .cons (.named [.notStarted,.active,.completed,.cancelled] Lifecycle.name) <| .cons calendarDate <| .cons calendarDate <|
      .cons nullableTime <| .cons .flag <| .cons nullableTime <| .cons .flag <| .cons .flag <|
      .cons (nullablePermanentId control) <| .cons (nullablePermanentId control) <| .cons (fence.nullable rfl) .nil)
    (by decide)).as
    (fun (externalProjectId,version,name,lifecycle,plannedStart,plannedEnd,completedAt,archived,archivedAt,overdueWarning,
        published,organizationRecordId,clientRecordId,externalFence,()) =>
      (⟨externalProjectId,version,name,lifecycle,plannedStart,plannedEnd,completedAt,archived,archivedAt,overdueWarning,
        published,organizationRecordId,clientRecordId,externalFence⟩ : Project))
    (fun x => (x.externalProjectId,x.version,x.name,x.lifecycle,x.plannedStart,x.plannedEnd,x.completedAt,x.archived,
      x.archivedAt,x.overdueWarning,x.published,x.organizationRecordId,x.clientRecordId,x.externalFence,()))
    (fun _ => rfl)).checked fun x =>
      !(x.plannedEnd.any fun ends => x.plannedStart.any fun starts => before ends starts)
        && x.archived == x.archivedAt.isSome && decide (x.lifecycle = .completed) == x.completedAt.isSome

def folder : Codec FolderReservation :=
  (Codec.record folderKeys (.cons uuid <| .cons (permanentId control 191) <| .cons (permanentId control 191) <| .cons (permanentId control 191) <|
      .cons (permanentId control 200) <| .cons (decimalNumber true) <| .cons (.text safePrefixText) <| .cons headState .nil)
    (by decide)).as
    (fun (reservationId,externalProjectId,opsFolderProjectId,divisionId,clientFolderBindingId,bindingVersion,r2Prefix,state,()) =>
      ⟨reservationId,externalProjectId,opsFolderProjectId,divisionId,clientFolderBindingId,bindingVersion,r2Prefix,state⟩)
    (fun x => (x.reservationId,x.externalProjectId,x.opsFolderProjectId,x.divisionId,x.clientFolderBindingId,x.bindingVersion, x.r2Prefix,x.state,()))
    (fun _ => rfl)

def permissions : Codec (List Permission) :=
  (Codec.rows 1 (.named [.serviceHomeRead] Permission.name) fun _ => []).settled (rows_single fun _ => trivial)

def recipient : Codec RecipientHead :=
  ((Codec.record recipientKeys (.cons uuid <| .cons uuid <| .cons (permanentId control 191) <| .cons uuid <| .cons (permanentId control 200) <|
      .cons (boundedText 512) <| .cons (boundedText 512) <| .cons (decimalNumber true) <| .cons (decimalNumber true) <|
      .cons (decimalNumber true) <| .cons headState <| .cons uuid <| .cons .integer <|
      .cons permissions .nil) (by decide)).as
    (fun (recipientBindingId,enrollmentIntentId,targetClientRecordId,clientAuthorityId,workspaceId,issuer,subject,
        enrollmentRevision,ownershipEpoch,grantRevision,state,lastOperationId,protocolVersion,permissions,()) =>
      (⟨recipientBindingId,enrollmentIntentId,targetClientRecordId,clientAuthorityId,workspaceId,issuer,subject,
        enrollmentRevision,ownershipEpoch,grantRevision,state,lastOperationId,protocolVersion,permissions⟩ : RecipientHead))
    (fun x => (x.recipientBindingId,x.enrollmentIntentId,x.targetClientRecordId,x.clientAuthorityId,x.workspaceId,x.issuer,
      x.subject,x.enrollmentRevision,x.ownershipEpoch,x.grantRevision,x.state,x.lastOperationId,x.protocolVersion,
      x.permissions,()))
    (fun _ => rfl)).checked fun x =>
      decide (x.protocolVersion = 3) && decide (x.permissions.length = if x.state = .revoked then 0 else 1)

def delivery : Codec DeliveryHead :=
  (Codec.record deliveryKeys (.cons uuid <| .cons (decimalNumber true) <| .cons headState <| .cons uuid <| .cons uuid <|
      .cons (permanentId control 200) <| .cons uuid <| .cons uuid <| .cons (decimalNumber true) <| .cons (decimalNumber true) <|
      .cons uuid <| .cons (permanentId control 200) <| .cons nullableTime .nil) (by decide)).as
    (fun (authorityId,authorityRevision,state,lastOperationId,clientAuthorityId,workspaceId,recipientBindingId,
        enrollmentIntentId,homeOwnershipEpoch,homeGrantRevision,folderReservationId,folderBindingId,expiresAt,()) =>
      ⟨authorityId,authorityRevision,state,lastOperationId,clientAuthorityId,workspaceId,recipientBindingId,
        enrollmentIntentId,homeOwnershipEpoch,homeGrantRevision,folderReservationId,folderBindingId,expiresAt⟩)
    (fun x => (x.authorityId,x.authorityRevision,x.state,x.lastOperationId,x.clientAuthorityId,x.workspaceId,
      x.recipientBindingId,x.enrollmentIntentId,x.homeOwnershipEpoch,x.homeGrantRevision,x.folderReservationId,
      x.folderBindingId,x.expiresAt,()))
    (fun _ => rfl)

def targetCodec : Codec Target :=
  (Codec.record targetKeys (.cons uuid <| .cons (decimalNumber true) <| .cons uuid <| .cons (permanentId control 200) <|
      .cons (.named [.organization,.standaloneClient] RootKind.name) <| .cons (permanentId control 191) .nil) (by decide)).as
    (fun (targetId,targetRevision,clientAuthorityId,workspaceId,rootKind,rootRecordId,()) =>
      ⟨targetId,targetRevision,clientAuthorityId,workspaceId,rootKind,rootRecordId⟩)
    (fun x => (x.targetId,x.targetRevision,x.clientAuthorityId,x.workspaceId,x.rootKind,x.rootRecordId,()))
    (fun _ => rfl)

def countsCodec : Codec Counts :=
  (Codec.record countKeys (.cons .integer <| .cons .integer <| .cons .integer <| .cons .integer <| .cons .integer .nil) (by decide)).as
    (fun (directoryRecords,projects,folderReservations,recipientAuthorityHeads,deliveryAuthorityHeads,()) =>
      ⟨directoryRecords,projects,folderReservations,recipientAuthorityHeads,deliveryAuthorityHeads⟩)
    (fun x => (x.directoryRecords,x.projects,x.folderReservations,x.recipientAuthorityHeads,x.deliveryAuthorityHeads,()))
    (fun _ => rfl)

def exactCount (value : Int) (actual maximum minimum : Nat) : Bool :=
  decide (value = actual) && decide (minimum ≤ actual) && decide (actual ≤ maximum)

def snapshotCodec : Codec Snapshot :=
  ((Codec.record snapshotKeys (.cons uuid <| .cons uuid <| .cons (decimalNumber true) <| .cons .flag <| .cons countsCodec <| .cons (.text sha256Text) <|
      .cons (.rows maximumDirectoryRecords (directoryRecord control) fun x => [x.recordId]) <|
      .cons (.rows maximumProjects (project control) fun x => [x.externalProjectId]) <|
      .cons (.rows maximumFolderReservations (folder control) fun x => [x.externalProjectId,x.reservationId]) <|
      .cons (.rows maximumRecipientHeads (recipient control) fun x => [x.issuer,x.subject,x.recipientBindingId]) <|
      .cons (.rows maximumDeliveryHeads (delivery control) fun x => [x.authorityId]) .nil) (by decide)).as
    (fun (snapshotId,checkpointId,sourceSequence,complete,counts,snapshotSha256,directoryRecords,projects,folderReservations,
        recipientAuthorityHeads,deliveryAuthorityHeads,()) =>
      (⟨snapshotId,checkpointId,sourceSequence,complete,counts,snapshotSha256,directoryRecords,projects,folderReservations,
        recipientAuthorityHeads,deliveryAuthorityHeads⟩ : Snapshot))
    (fun x => (x.snapshotId,x.checkpointId,x.sourceSequence,x.complete,x.counts,x.snapshotSha256,x.directoryRecords,x.projects,
      x.folderReservations,x.recipientAuthorityHeads,x.deliveryAuthorityHeads,()))
    (fun _ => rfl)).checked fun x =>
      x.complete && decide (x.snapshotId ≠ x.checkpointId)
        && exactCount x.counts.directoryRecords x.directoryRecords.length maximumDirectoryRecords 1
        && exactCount x.counts.projects x.projects.length maximumProjects 0
        && exactCount x.counts.folderReservations x.folderReservations.length maximumFolderReservations 0
        && exactCount x.counts.recipientAuthorityHeads x.recipientAuthorityHeads.length maximumRecipientHeads 0
        && exactCount x.counts.deliveryAuthorityHeads x.deliveryAuthorityHeads.length maximumDeliveryHeads 0

def actorCodec : Codec ActorProof :=
  (Codec.record actorKeys (.cons (permanentId control 191) <| .cons (boundedText 512) <| .cons (decimalNumber true) <| .cons (decimalNumber true) <|
      .cons (decimalNumber true) <| .cons canonicalTime .nil) (by decide)).as
    (fun (staffId,verifiedAccessSubject,admissionVersion,profileVersion,grantGeneration,verifiedUntil,()) =>
      ⟨staffId,verifiedAccessSubject,admissionVersion,profileVersion,grantGeneration,verifiedUntil⟩)
    (fun x => (x.staffId,x.verifiedAccessSubject,x.admissionVersion,x.profileVersion,x.grantGeneration,x.verifiedUntil,()))
    (fun _ => rfl)
end

def unique (values : List Text) : Bool := decide values.Nodup

def identitiesUnique (publication : Publication) : Bool :=
  let snapshot := publication.snapshot
  let directoryFences := snapshot.directoryRecords.flatMap fun record => record.externalFences.map fenceIdentity
  let projectFences := snapshot.projects.filterMap fun project => project.externalFence.map fenceIdentity
  let operationIds := snapshot.recipientAuthorityHeads.map RecipientHead.lastOperationId
    ++snapshot.deliveryAuthorityHeads.map DeliveryHead.lastOperationId
  unique (snapshot.directoryRecords.map DirectoryRecord.recordId) && unique directoryFences
    && unique (snapshot.projects.map Project.externalProjectId) && unique projectFences
    && unique (snapshot.folderReservations.map FolderReservation.reservationId)
    && unique (snapshot.folderReservations.map FolderReservation.clientFolderBindingId)
    && unique (snapshot.folderReservations.map FolderReservation.r2Prefix)
    && unique (snapshot.recipientAuthorityHeads.map RecipientHead.recipientBindingId)
    && unique (snapshot.recipientAuthorityHeads.map RecipientHead.enrollmentIntentId)
    && unique (snapshot.recipientAuthorityHeads.map fun head => head.issuer++[0]++head.subject)
    && unique (snapshot.deliveryAuthorityHeads.map DeliveryHead.authorityId) && unique operationIds

def directoryAllowed (target : Target) (record : DirectoryRecord) : Bool :=
  decide (record.recordId = target.rootRecordId)
    || (decide (target.rootKind = .organization) && decide (record.kind = .client)
      && decide (record.parentRecordId = some target.rootRecordId) && record.relationshipVersion.isSome)

def projectAllowed (target : Target) (directory : Text → Option DirectoryRecord) (project : Project) : Bool :=
  (project.organizationRecordId.isSome || project.clientRecordId.isSome) && if target.rootKind = .standaloneClient then
        project.organizationRecordId.isNone && decide (project.clientRecordId = some target.rootRecordId)
      else
        (project.organizationRecordId.all fun id => decide (id = target.rootRecordId)) && project.clientRecordId.all fun id => (directory id).any fun client =>
            decide (client.kind = .client) && decide (client.parentRecordId = some target.rootRecordId)

def deliveryAllowed (publication : Publication) (recipients : Text → Option RecipientHead)
    (folders : Text → Option FolderReservation) (delivery : DeliveryHead) : Bool :=
  decide (delivery.clientAuthorityId = publication.target.clientAuthorityId)
    && decide (delivery.workspaceId = publication.target.workspaceId)
    && (recipients delivery.recipientBindingId).any fun recipient => (folders delivery.folderReservationId).any fun folder =>
      decide (delivery.enrollmentIntentId = recipient.enrollmentIntentId)
        && decide (delivery.folderBindingId = folder.clientFolderBindingId)
        && (decide (delivery.state = .revoked)
          || (decide (recipient.state = .active) && decide (folder.state = .active)
            && decide (delivery.homeOwnershipEpoch = recipient.ownershipEpoch)
            && decide (delivery.homeGrantRevision = recipient.grantRevision)
            && delivery.expiresAt.all fun expires => decide (parseTime publication.observedAt < parseTime expires)))

def topologyValid (publication : Publication) : Bool :=
  let target := publication.target
  let snapshot := publication.snapshot
  let directory id := snapshot.directoryRecords.find? fun record => decide (record.recordId = id)
  let projects id := snapshot.projects.find? fun project => decide (project.externalProjectId = id)
  let folders id := snapshot.folderReservations.find? fun folder => decide (folder.reservationId = id)
  let recipients id := snapshot.recipientAuthorityHeads.find? fun head => decide (head.recipientBindingId = id)
  ((directory target.rootRecordId).any fun root => root.parentRecordId.isNone
      && decide (root.kind = if target.rootKind = .organization then .organization else .client))
    && snapshot.directoryRecords.all (directoryAllowed target)
    && (decide (target.rootKind ≠ .standaloneClient) || decide (snapshot.directoryRecords.length = 1))
    && snapshot.projects.all (projectAllowed target directory)
    && (snapshot.folderReservations.all fun folder => (projects folder.externalProjectId).any fun project =>
      decide (folder.state ≠ .active) || project.published)
    && (snapshot.recipientAuthorityHeads.all fun recipient =>
      decide (recipient.clientAuthorityId = target.clientAuthorityId) && decide (recipient.workspaceId = target.workspaceId)
        && (decide (recipient.state ≠ .active)
          || (directory recipient.targetClientRecordId).any fun record => decide (record.kind = .client)))
    && snapshot.deliveryAuthorityHeads.all (deliveryAllowed publication recipients folders)

variable (control : Nat → Bool)

def protocolName : Text := ascii "operations-portal-workspace-publication"

def publicationFields : Codec Publication :=
  (Codec.record publicationKeys (.cons (.text fun text => decide (text = protocolName)) <| .cons .integer <|
      .cons (.text fun text => decide (text = ascii "publish")) <| .cons uuid <| .cons uuid <| .cons (decimalNumber false) <|
      .cons (decimalNumber true) <| .cons (targetCodec control) <| .cons (snapshotCodec control) <|
      .cons (actorCodec control) <| .cons canonicalTime .nil) (by decide)).as
    (fun (protocol,protocolVersion,action,publicationId,operationId,expectedRevision,resultingRevision,target,snapshot, actorProof,observedAt,()) =>
      ⟨protocol,protocolVersion,action,publicationId,operationId,expectedRevision,resultingRevision,target,snapshot, actorProof,observedAt⟩)
    (fun x => (x.protocol,x.protocolVersion,x.action,x.publicationId,x.operationId,x.expectedRevision,x.resultingRevision,
      x.target,x.snapshot,x.actorProof,x.observedAt,()))
    (fun _ => rfl)

def publicationCodec : Codec Publication :=
  (publicationFields control).checked fun x =>
    decide (x.protocolVersion = 1) && decide (x.publicationId ≠ x.operationId)
      && decide (number x.resultingRevision = number x.expectedRevision+1)
      && decide (parseTime x.observedAt < parseTime x.actorProof.verifiedUntil)
      && identitiesUnique x && topologyValid x
      && decide (utf8Length (stringify ((publicationFields control).write x)) ≤ maximumCanonicalBytes)

def parsePublication (value : JsValue) : Option Publication := (publicationCodec control).read value
def publicationJson (publication : Publication) : JsValue := (publicationCodec control).write publication

def canonicalPublication (value : JsValue) : Option Text :=
  (parsePublication control value).map fun publication => stringify (publicationJson control publication)

def snapshotHashMaterial (publication : Publication) : Text :=
  let snapshot := publication.snapshot
  let rows {α : Type} (codec : Codec α) (items : List α) : JsValue := .array true (items.map codec.write)
  stringify (.object true [
    (ascii "protocol",.string publication.protocol),
    (ascii "protocolVersion",.number publication.protocolVersion),
    (ascii "target",(targetCodec control).write publication.target),
    (ascii "snapshot",.object true [ (ascii "snapshotId",.string snapshot.snapshotId), (ascii "checkpointId",.string snapshot.checkpointId),
      (ascii "sourceSequence",.string snapshot.sourceSequence),
      (ascii "complete",.bool snapshot.complete),
      (ascii "counts",countsCodec.write snapshot.counts),
      (ascii "directoryRecords",rows (directoryRecord control) snapshot.directoryRecords),
      (ascii "projects",rows (project control) snapshot.projects),
      (ascii "folderReservations",rows (folder control) snapshot.folderReservations),
      (ascii "recipientAuthorityHeads",rows (recipient control) snapshot.recipientAuthorityHeads),
      (ascii "deliveryAuthorityHeads",rows (delivery control) snapshot.deliveryAuthorityHeads)])])
end LedgeTopOps.WorkspacePublication
