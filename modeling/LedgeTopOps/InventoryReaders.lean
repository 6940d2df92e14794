import LedgeTopOps.TextPatterns

namespace LedgeTopOps.InventoryReaders
open List TextPatterns

abbrev Text := List Char

-- JavaScript orders strings by their UTF-16 units.
def codeUnits (c : Char) : List Nat :=
  if c.toNat < 0x10000 then [c.toNat] else [0xD800 + (c.toNat - 0x10000) / 0x400,0xDC00 + (c.toNat - 0x10000) % 0x400]

def less (left right : Text) : Bool := decide (left.flatMap codeUnits < right.flatMap codeUnits)
def lowerCase (c : Char) : Char := if upperLetter c then Char.ofNat (c.toNat + 32) else c
def maximumInteger : Text := "9223372036854775807".toList

-- The patterns both readers share. On digits the order of the code points is that of the units.
def fits (value : Text) : Bool := decide (value.length < maximumInteger.length) || !decide (maximumInteger < value)
def positive (value : Text) : Bool :=
  match value with
  | first :: rest => (decimal first && first != '0') && repeated 0 18 decimal rest
  | [] => false
def revision (value : Text) : Bool := positive value && fits value
def generation (value : Text) : Bool := (value == ['0'] || positive value) && fits value
def publicId (value : Text) : Bool := repeated 32 32 lowerHex value
def hash (value : Text) : Bool := repeated 64 64 lowerHex value
def variant (c : Char) : Bool := among ['8','9','a','b'] c
def uuid (value : Text) : Bool := TextPatterns.uuid (exactly '4') variant value
def uuidInsensitive (value : Text) : Bool := uuid (value.map lowerCase)

-- `control` is \p{C}. A text of characters encodes to bytes that decode to itself.
def externalId (control : Char → Bool) (value : Text) : Bool :=
  !value.isEmpty && decide (value.length ≤ 191) && !value.any control && decide (value.foldl (fun n c => n + c.utf8Size) 0 ≤ 764)

inductive DirectoryType where
  | client | organization
deriving DecidableEq

inductive LastAction where
  | upsert | delete
deriving DecidableEq

inductive BindingStatus where
  | active | tombstoned
deriving DecidableEq

structure Binding where
  externalId : Text
  status : BindingStatus
  resourceRevision : Text
deriving DecidableEq

structure Resource where
  type : DirectoryType
  (publicId revision : Text)
  present : Bool
  lastAction : LastAction
  projectionSha256 : Text
  binding : Option Binding
deriving DecidableEq

inductive Lifecycle where
  | not_started | active | completed | cancelled
deriving DecidableEq

structure Project where
  (externalId publicId revision projectionSha256 : Text)
  status : Lifecycle
  archived : Bool
deriving DecidableEq

-- The body of an answer once its keys have been checked, with the items of one kind.
structure Body (ι : Type) where
  (sourceInstanceId applicationId historyEpoch requestId authorizationGeneration : Text)
  items : List ι
  nextCursor : Option Text

structure Connection where
  (expectedSourceInstanceId expectedApplicationId expectedHistoryEpoch : Text)

def Body.expected (body : Body ι) (connection : Connection) (requestId : Option Text) : Bool :=
  decide (body.sourceInstanceId = connection.expectedSourceInstanceId) && decide (body.applicationId = connection.expectedApplicationId) &&
    decide (body.historyEpoch = connection.expectedHistoryEpoch) && decide (requestId = some body.requestId)

section

def DirectoryType.name : DirectoryType → Text
  | .client => "client".toList
  | .organization => "organization".toList

structure DirectoryQuery where
  type : Option DirectoryType
  cursor : Option Text
  limit : Nat

def Resource.key (item : Resource) : Text := item.type.name++ ':' :: item.publicId
def cursorPattern (type : DirectoryType) (value : Text) : Bool := led (type.name++[':']) publicId value

def validBinding (control : Char → Bool) (binding : Binding) : Bool :=
  externalId control binding.externalId && revision binding.resourceRevision

def validResource (control : Char → Bool) (item : Resource) : Bool :=
  publicId item.publicId && revision item.revision && hash item.projectionSha256 &&
    (!decide (item.lastAction = .delete) || !item.present) && (!decide (item.lastAction = .upsert) || item.present) &&
    item.binding.all (validBinding control)

def validResources (control : Char → Bool) (type : Option DirectoryType) : Text → List Resource → Bool
  | _, [] => true
  | previous, item :: rest => validResource control item && (previous.isEmpty || less previous item.key) &&
      type.all (fun wanted => item.type = wanted) && validResources control type item.key rest

def lastKey (query : DirectoryQuery) (items : List Resource) : Text := (items.getLast?.map Resource.key).getD (query.cursor.getD [])

def inventorySuccess (control : Char → Bool) (query : DirectoryQuery) (connection : Connection) (requestId : Option Text)
    (body : Body Resource) : Bool :=
  body.expected connection requestId && uuidInsensitive body.requestId && generation body.authorizationGeneration &&
    decide (body.items.length ≤ query.limit) && validResources control query.type (query.cursor.getD []) body.items &&
    body.nextCursor.all fun next => !body.items.isEmpty && decide (next = lastKey query body.items) &&
      (cursorPattern .client next || cursorPattern .organization next) &&
      query.type.all fun type => (type.name++[':']).isPrefixOf next
end

section

def validProject (control : Char → Bool) (item : Project) : Bool :=
  externalId control item.externalId && publicId item.publicId && revision item.revision && hash item.projectionSha256

def validProjects (control : Char → Bool) : Option Text → List Project → Bool
  | _, [] => true
  | previous, item :: rest => validProject control item && previous.all (fun previous => less previous item.externalId) &&
      validProjects control (some item.externalId) rest

def valid (control : Char → Bool) (limit : Nat) (connection : Connection) (requestId : Option Text) (body : Body Project) : Bool :=
  body.expected connection requestId && uuid body.requestId && generation body.authorizationGeneration &&
    decide (body.items.length ≤ limit) && decide (body.items.length ≤ 200) && body.nextCursor.all (externalId control) &&
    validProjects control none body.items &&
    body.nextCursor.all fun next => decide (body.items.length = limit) && decide (body.items.getLast?.map Project.externalId = some next)
end

theorem less_irrefl (text : Text) : less text text = false :=
  decide_eq_false (List.lt_irrefl _)

theorem less_trans (left : less first second) (right : less second third) : less first third :=
  decide_eq_true (List.lt_trans (of_decide_eq_true left) (of_decide_eq_true right))

section
variable {control : Char → Bool} {type : Option DirectoryType} {previous : Text} {items : List Resource} (valid : validResources control type previous items)
include control type previous items valid

theorem resources_valid : ∀ item ∈ items, validResource control item := by
  induction items generalizing previous with
  | nil => exact fun _ mem => (not_mem_nil mem).elim
  | cons _ _ ih =>
    simp only [validResources,Bool.and_eq_true] at valid
    intro other mem
    rcases mem_cons.mp mem with rfl | later
    · exact valid.1.1.1
    exact ih valid.2 other later

theorem resources_rise : (previous ≠ [] → ∀ item ∈ items, less previous item.key) ∧ items.Pairwise fun one other => less one.key other.key := by
  induction items generalizing previous with
  | nil => exact ⟨fun _ _ mem => (not_mem_nil mem).elim,.nil⟩
  | cons item _ ih =>
    simp only [validResources,Bool.and_eq_true,Bool.or_eq_true,List.isEmpty_iff] at valid
    have long : item.key ≠ [] := by
      exact append_ne_nil_of_right_ne_nil _ (cons_ne_nil _ _)
    obtain ⟨above,rising⟩ := ih valid.2
    refine ⟨fun given other mem => ?_,pairwise_cons.mpr ⟨above long,rising⟩⟩
    have step : less previous item.key := valid.1.1.2.resolve_left given
    rcases mem_cons.mp mem with rfl | later
    · exact step
    exact less_trans step (above long other later)

theorem resources_distinct : (items.map fun item => (item.type,item.publicId)).Nodup := by
  refine pairwise_map.mpr ((resources_rise valid).2.imp fun {one other} rise same => ?_)
  have keys : one.key = other.key := by
    unfold Resource.key
    rw [(Prod.mk.inj same).1,(Prod.mk.inj same).2]
  rw [keys,less_irrefl] at rise
  cases rise
end

theorem projects_valid {control : Char → Bool} (valid : validProjects control previous items) : ∀ item ∈ items, validProject control item := by
  induction items generalizing previous with
  | nil => exact fun _ mem => (not_mem_nil mem).elim
  | cons _ _ ih =>
    simp only [validProjects,Bool.and_eq_true] at valid
    intro other mem
    rcases mem_cons.mp mem with rfl | later
    · exact valid.1.1
    exact ih valid.2 other later
end LedgeTopOps.InventoryReaders
