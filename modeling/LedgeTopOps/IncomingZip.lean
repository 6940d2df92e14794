import LedgeTopOps.LittleEndian
import LedgeTopOps.JsonText
import LedgeTopOps.KeyedRows

namespace LedgeTopOps.IncomingZip
open LittleEndian JsonText KeyedRows List

variable (decode : Bytes → Option Text) (size : Nat) (readRange : Nat → Nat → Bytes)

-- What is thrown: an InvalidDirectory with its reason, or the RangeError of a
-- DataView.
inductive Fault where
  | invalid (reason : String)
  | range

inductive Kind where
  | file | folder
deriving DecidableEq

structure ZipDirectoryEntry where
  (path name : Text)
  kind : Kind
  size : Option Nat

inductive ZipDirectoryResult where
  | ready (entries : List ZipDirectoryEntry)
  | unavailable (reason : String)

def maxCd : Nat := 4 * 1024 * 1024
def maxEntries : Nat := 20000
def maxExpanded : Nat := 40000
def maxSafeInteger : Nat := 9007199254740991
def eocd : Nat := 0x06054b50
def central : Nat := 0x02014b50
def zip64Locator : Nat := 0x07064b50
def zip64End : Nat := 0x06064b50

def refuse (bad : Bool) (reason : String) : Except Fault Unit := if bad then .error (.invalid reason) else .ok ()

def unsigned (width : Nat) (data : Bytes) (offset : Nat) : Except Fault Nat :=
  if offset + width ≤ data.length then .ok (ofLe (slice offset width data)) else .error .range

def getUint8 (data : Bytes) (offset : Nat) : Except Fault Nat := unsigned 1 data offset
def getUint16 (data : Bytes) (offset : Nat) : Except Fault Nat := unsigned 2 data offset
def getUint32 (data : Bytes) (offset : Nat) : Except Fault Nat := unsigned 4 data offset

def u64 (data : Bytes) (offset : Nat) : Except Fault Nat := do
  let value ← unsigned 8 data offset
  refuse (decide (maxSafeInteger < value)) "zip64_invalid"
  pure value

def separator : UInt16 := 0x2F
def split (path : Text) : List Text := path.splitOn separator
def join (parts : List Text) : Text := [separator].intercalate parts

def drive : Text → Bool
  | letter :: colon :: _ => (decide (0x41 ≤ letter ∧ letter ≤ 0x5A) || decide (0x61 ≤ letter ∧ letter ≤ 0x7A)) && decide (colon = 0x3A)
  | _ => false

def control (c : UInt16) : Bool := decide (c ≤ 0x1F) || decide (c = 0x7F)

def unfit (part : Text) : Bool := decide (part = [] ∨ part = [0x2E] ∨ part = [0x2E,0x2E] ∨ 255 < part.length)

def normalizedPath (raw : Text) : Except Fault Text := do
  refuse (decide (raw = [] ∨ 2048 < raw.length ∨ raw.head? = some separator) || drive raw || decide (0x5C ∈ raw) || raw.any control) "invalid_path"
  let result := if raw.getLast? = some separator then raw.dropLast else raw
  let parts := split result
  refuse (decide (32 < parts.length) || parts.any unfit) "invalid_path"
  pure result

-- The entries in the order of a Map, and the set of the paths that have an
-- entry of their own.
structure Listing where
  entries : List ZipDirectoryEntry
  explicit : List Text
  expandedBytes : Nat

def Listing.get (listing : Listing) (path : Text) : Option ZipDirectoryEntry := find ZipDirectoryEntry.path listing.entries path

def insert (listing : Listing) (entry : ZipDirectoryEntry) : Except Fault Listing :=
  if (listing.get entry.path).isSome then
    pure { listing with entries := amend ZipDirectoryEntry.path listing.entries entry.path fun _ => entry }
  else do
    let expandedBytes := listing.expandedBytes + utf8Length entry.path + 64
    refuse (decide (maxExpanded ≤ listing.entries.length) || decide (maxCd < expandedBytes)) "metadata_limit"
    pure { listing with entries := listing.entries++[entry], expandedBytes := expandedBytes }

def ensureFolder (listing : Listing) (path name : Text) : Except Fault Listing :=
  if (listing.get path).isNone then insert listing ⟨path,name,.folder,none⟩ else pure listing

def insertParents (parts : List Text) : List Nat → Listing → Except Fault Listing
  | [],listing => pure listing
  | depth :: rest,listing => do
    let parent := join (parts.take depth)
    refuse ((listing.get parent).any fun entry => decide (entry.kind = .file)) "conflicting_path"
    let listing ← ensureFolder listing parent (parts.getD (depth - 1) [])
    insertParents parts rest listing

structure Sizes where
  (memberBytes compressedBytes localOffset disk : Nat)

def take (cd : Bytes) (endExtra p value : Nat) : Except Fault (Nat × Nat) :=
  if value = 0xffffffff then do
    refuse (decide (endExtra < p + 8)) "zip64_invalid"
    let v ← u64 cd p
    pure (v,p + 8)
  else pure (value,p)

def zip64Sizes (cd : Bytes) (endExtra p : Nat) (sizes : Sizes) : Except Fault Sizes := do
  let first ← take cd endExtra p sizes.memberBytes
  let second ← take cd endExtra first.2 sizes.compressedBytes
  let third ← take cd endExtra second.2 sizes.localOffset
  if sizes.disk = 0xffff then do
    refuse (decide (endExtra < third.2 + 4)) "zip64_invalid"
    let disk ← getUint32 cd third.2
    pure ⟨first.1,second.1,third.1,disk⟩
  else pure ⟨first.1,second.1,third.1,sizes.disk⟩

-- The extra fields up to the one of ZIP64.
def zip64Extra (cd : Bytes) (sizes : Sizes) (extra extraEnd : Nat) : Except Fault Sizes :=
  if _more : extra + 4 ≤ extraEnd then do
    let tag ← getUint16 cd extra
    let length ← getUint16 cd (extra + 2)
    refuse (decide (extraEnd < extra + 4 + length)) "zip64_invalid"
    if tag = 1 then zip64Sizes cd (extra + 4 + length) (extra + 4) sizes
    else zip64Extra cd sizes (extra + 4 + length) extraEnd
  else .error (.invalid "zip64_invalid")
termination_by extraEnd - extra

def actualSizes (cd : Bytes) (sizes : Sizes) (extra extraEnd : Nat) : Except Fault Sizes :=
  if 0xffffffff ∈ [sizes.memberBytes,sizes.compressedBytes,sizes.localOffset] ∨ sizes.disk = 0xffff then zip64Extra cd sizes extra extraEnd
  else pure sizes

def decoded (bytes : Bytes) : Except Fault Text := match decode bytes with
  | some raw => pure raw
  | none => .error (.invalid "filename_encoding_unsupported")

-- One record of the central directory: where the next one starts, and the
-- listing with its entry. decode is the fatal TextDecoder.
def readEntry (cd : Bytes) (cdOffset offset : Nat) (listing : Listing) : Except Fault (Nat × Listing) := do
  refuse (decide (cd.length < offset + 46)) "malformed_central_directory"
  let signature ← getUint32 cd offset
  refuse (decide (signature ≠ central)) "malformed_central_directory"
  let flags ← getUint16 cd (offset + 8)
  refuse (decide (flags &&& 0x41 ≠ 0)) "encrypted_entries"
  let nl ← getUint16 cd (offset + 28)
  let xl ← getUint16 cd (offset + 30)
  let cl ← getUint16 cd (offset + 32)
  let next := offset + 46 + nl + xl + cl
  refuse (decide (cd.length < next)) "malformed_central_directory"
  let nameBytes := slice (offset + 46) nl cd
  refuse (decide (flags &&& 0x800 = 0) && nameBytes.any fun b => decide (128 ≤ b)) "filename_encoding_unsupported"
  let raw ← decoded decode nameBytes
  let path ← normalizedPath raw
  let attrs ← getUint32 cd (offset + 38)
  let host ← getUint8 cd (offset + 5)
  let unixType := if host = 3 then (attrs >>> 16) &&& 0o170000 else 0
  refuse (decide (unixType ≠ 0 ∧ unixType ≠ 0o100000 ∧ unixType ≠ 0o040000)) "unsafe_special_file"
  let kind : Kind := if raw.getLast? = some separator ∨ unixType = 0o040000 ∨ attrs &&& 0x10 ≠ 0 then .folder else .file
  refuse (decide (unixType = 0o100000 ∧ kind = .folder)) "conflicting_path"
  let memberBytes ← getUint32 cd (offset + 24)
  let compressedBytes ← getUint32 cd (offset + 20)
  let localOffset ← getUint32 cd (offset + 42)
  let disk ← getUint16 cd (offset + 34)
  let sizes ← actualSizes cd ⟨memberBytes,compressedBytes,localOffset,disk⟩ (offset + 46 + nl) (offset + 46 + nl + xl)
  refuse (decide (sizes.disk ≠ 0)) "multi_disk"
  refuse (decide (cdOffset < sizes.localOffset ∨ cdOffset - sizes.localOffset < sizes.compressedBytes)) "malformed_central_directory"
  refuse (decide (path ∈ listing.explicit)) "duplicate_path"
  refuse ((listing.get path).any fun entry => decide (entry.kind ≠ .folder ∨ kind ≠ .folder)) "conflicting_path"
  let parts := split path
  let listing ← insertParents parts (range' 1 (parts.length - 1)) listing
  let listing ← insert { listing with explicit := listing.explicit++[path] }
    ⟨path,parts.getLastD [],kind,if kind = .file then some sizes.memberBytes else none⟩
  pure (next,listing)

def readEntries (cd : Bytes) (cdOffset : Nat) : Nat → Nat → Listing → Except Fault (Nat × Listing)
  | 0,offset,listing => pure (offset,listing)
  | left + 1,offset,listing => do
    let one ← readEntry decode cd cdOffset offset listing
    readEntries cd cdOffset left one.1 one.2

def read (offset length : Nat) : Except Fault Bytes := do
  refuse (decide (maxSafeInteger < offset ∨ maxSafeInteger < length ∨ maxCd < length ∨ size < offset + length)) "malformed_central_directory"
  if length = 0 then pure [] else do
    let bytes := readRange offset length
    refuse (decide (bytes.length ≠ length)) "malformed_central_directory"
    pure bytes

-- The search for the end record, from the place before the given one down to
-- the start.
def findEnd (tail : Bytes) (tailLength : Nat) : Nat → Except Fault Nat
  | 0 => .error (.invalid "not_zip")
  | i + 1 => do
    let signature ← getUint32 tail i
    if signature = eocd then do
      let comment ← getUint16 tail (i + 20)
      if i + 22 + comment = tailLength then pure i else findEnd tail tailLength i
    else findEnd tail tailLength i

structure Directory where
  (count cdBytes cdOffset boundary : Nat)

def zip64Directory (boundary : Nat) : Except Fault Directory := do
  refuse (decide (boundary < 20)) "zip64_invalid"
  let locatorOffset := boundary - 20
  let locator ← read size readRange locatorOffset 20
  let signature ← getUint32 locator 0
  refuse (decide (signature ≠ zip64Locator)) "zip64_invalid"
  let disk ← getUint32 locator 4
  let disks ← getUint32 locator 16
  refuse (decide (disk ≠ 0 ∨ disks ≠ 1)) "multi_disk"
  let zip64Offset ← u64 locator 8
  refuse (decide (locatorOffset < zip64Offset + 56)) "zip64_invalid"
  let z ← read size readRange zip64Offset 56
  let signature ← getUint32 z 0
  refuse (decide (signature ≠ zip64End)) "zip64_invalid"
  let recordLength ← u64 z 4
  refuse (decide (recordLength < 44 ∨ recordLength ≠ locatorOffset - zip64Offset - 12)) "zip64_invalid"
  let disk ← getUint32 z 16
  let start ← getUint32 z 20
  refuse (decide (disk ≠ 0 ∨ start ≠ 0)) "multi_disk"
  let count ← u64 z 32
  let diskCount ← u64 z 24
  refuse (decide (diskCount ≠ count)) "multi_disk"
  let cdBytes ← u64 z 40
  let cdOffset ← u64 z 48
  pure ⟨count,cdBytes,cdOffset,zip64Offset⟩

def locate : Except Fault Directory := do
  refuse (decide (maxSafeInteger < size ∨ size < 22)) "not_zip"
  let tailLength := min size 65557
  let tail ← read size readRange (size - tailLength) tailLength
  let e ← findEnd tail tailLength (tailLength - 21)
  let disk ← getUint16 tail (e + 4)
  let start ← getUint16 tail (e + 6)
  refuse (decide (disk ≠ 0 ∨ start ≠ 0)) "multi_disk"
  let count ← getUint16 tail (e + 10)
  let cdBytes ← getUint32 tail (e + 12)
  let cdOffset ← getUint32 tail (e + 16)
  let diskCount ← getUint16 tail (e + 8)
  let boundary := size - tailLength + e
  if count = 0xffff ∨ diskCount = 0xffff ∨ cdBytes = 0xffffffff ∨ cdOffset = 0xffffffff then zip64Directory size readRange boundary
  else do
    refuse (decide (diskCount ≠ count)) "multi_disk"
    pure ⟨count,cdBytes,cdOffset,boundary⟩

def byPath (a b : ZipDirectoryEntry) : Bool := decide (a.path ≤ b.path)

def readDirectory : Except Fault (List ZipDirectoryEntry) := do
  let d ← locate size readRange
  refuse (decide (maxEntries < d.count)) "entry_limit"
  refuse (decide (maxCd < d.cdBytes)) "central_directory_too_large"
  refuse (decide (d.boundary < d.cdOffset + d.cdBytes ∨ d.cdBytes < d.count * 46)) "malformed_central_directory"
  let cd ← read size readRange d.cdOffset d.cdBytes
  let last ← readEntries decode cd d.cdOffset d.count 0 ⟨[],[],0⟩
  refuse (decide (last.1 ≠ cd.length)) "malformed_central_directory"
  pure (last.2.entries.mergeSort byPath)

def readIncomingZipDirectory : Except Fault ZipDirectoryResult :=
  match readDirectory decode size readRange with
  | .ok entries => .ok (.ready entries)
  | .error (.invalid reason) => .ok (.unavailable reason)
  | .error .range => .error .range

structure SafePath (path : Text) : Prop where
  relative : path.head? ≠ some separator ∧ drive path = false
  depth : (split path).length ≤ 32
  parts : ∀ part ∈ split path, part ≠ [] ∧ part ≠ [0x2E] ∧ part ≠ [0x2E,0x2E]
  plain : ∀ c ∈ path, c ≠ 0x5C ∧ control c = false

def ancestor (path : Text) (depth : Nat) : Text := join ((split path).take depth)

def Ancestor (parent path : Text) : Prop := ∃ depth, 0 < depth ∧ depth < (split path).length ∧ parent = ancestor path depth

def Rooted (entries : List ZipDirectoryEntry) : Prop := ∀ entry ∈ entries, ∀ path, Ancestor path entry.path →
  ∃ parent ∈ entries, parent.path = path ∧ parent.kind = .folder

structure SafeTree (entries : List ZipDirectoryEntry) : Prop where
  distinct : (entries.map ZipDirectoryEntry.path).Nodup
  ordered : entries.Pairwise fun a b => a.path < b.path
  bounded : entries.length ≤ 40000
  safe : ∀ entry ∈ entries, SafePath entry.path
  rooted : Rooted entries
  leaves : ∀ file ∈ entries, file.kind = .file → ∀ entry ∈ entries, ¬Ancestor file.path entry.path

section
variable {α β : Type}

def Settles (post : α → Prop) : Except Fault α → Prop
  | .ok a => post a
  | .error (.invalid _) => True
  | .error .range => False

theorem Settles.bind {next : β → Except Fault α} (first : Settles middle y) (rest : ∀ b, middle b → Settles post (next b)) : Settles post (y >>= next) := by
  cases y with
  | ok b => exact rest b first
  | error fault =>
    cases fault with
    | invalid => trivial
    | range => exact first

theorem Settles.weaken {weaker : α → Prop} (settles : Settles post x) (weak : ∀ a, post a → weaker a) : Settles weaker x := by
  cases x with
  | ok a => exact weak a settles
  | error fault =>
    cases fault with
    | invalid => trivial
    | range => exact settles

theorem settles_refuse {bad : Bool} {next : Unit → Except Fault α} (rest : bad = false → Settles post (next ())) :
    Settles post (refuse bad reason >>= next) := by
  cases bad with
  | false => exact rest rfl
  | true => trivial

theorem settles_unsigned {next : Nat → Except Fault α} (inside : offset + width ≤ data.length) (rest : ∀ value, Settles post (next value)) :
    Settles post (unsigned width data offset >>= next) := by
  unfold unsigned
  rw [if_pos inside]
  exact rest _

theorem settles_u64 {next : Nat → Except Fault α} (inside : offset + 8 ≤ data.length) (rest : ∀ value, Settles post (next value)) :
    Settles post (u64 data offset >>= next) := by
  have settled : Settles (fun _ => True) (u64 data offset) := settles_unsigned inside fun value => settles_refuse fun _ => trivial
  exact settled.bind fun value _ => rest value
end

section
theorem take_settles (value : Nat) (inside : endExtra ≤ cd.length) : Settles (fun _ => True) (take cd endExtra p value) := by
  unfold take
  split
  · refine settles_refuse fun more => settles_u64 ?_ fun _ => trivial
    have := of_decide_eq_false more
    omega
  trivial

theorem zip64Sizes_settles (sizes : Sizes) (inside : endExtra ≤ cd.length) : Settles (fun _ => True) (zip64Sizes cd endExtra p sizes) := by
  refine (take_settles _ inside).bind fun first _ => (take_settles _ inside).bind fun second _ => (take_settles _ inside).bind fun third _ => ?_
  split
  · refine settles_refuse fun more => settles_unsigned ?_ fun _ => trivial
    have := of_decide_eq_false more
    omega
  trivial

theorem zip64Extra_settles (sizes : Sizes) (extra : Nat) (inside : extraEnd ≤ cd.length) : Settles (fun _ => True) (zip64Extra cd sizes extra extraEnd) := by
  induction extra using zip64Extra.induct extraEnd with
  | case1 _ more ih =>
    rw [zip64Extra,dif_pos more]
    refine settles_unsigned (by omega) fun tag => settles_unsigned (by omega) fun length => settles_refuse fun within => ?_
    have := of_decide_eq_false within
    split
    · exact zip64Sizes_settles sizes (by omega)
    exact ih length
  | case2 _ done =>
    rw [zip64Extra,dif_neg done]
    trivial

theorem actualSizes_settles (sizes : Sizes) (extra : Nat) (inside : extraEnd ≤ cd.length) : Settles (fun _ => True) (actualSizes cd sizes extra extraEnd) := by
  unfold actualSizes
  split
  · exact zip64Extra_settles sizes extra inside
  trivial

theorem decoded_settles (bytes : Bytes) : Settles (fun _ => True) (decoded decode bytes) := by
  unfold decoded
  cases decode bytes <;> trivial

theorem read_settles (offset length : Nat) : Settles (fun bytes => bytes.length = length) (read size readRange offset length) := by
  refine settles_refuse fun _ => ?_
  split
  · rename_i none
    exact none.symm
  refine settles_refuse fun whole => ?_
  show (readRange offset length).length = length
  exact Decidable.not_not.mp (of_decide_eq_false whole)

theorem findEnd_settles {tail : Bytes} (most : i + 21 ≤ tail.length) : Settles (fun e => e + 22 ≤ tail.length) (findEnd tail tailLength i) := by
  induction i with
  | zero => trivial
  | succ i ih =>
    refine settles_unsigned (by omega) fun signature => ?_
    split
    · refine settles_unsigned (by omega) fun comment => ?_
      split
      · show i + 22 ≤ tail.length
        omega
      exact ih (by omega)
    exact ih (by omega)

theorem zip64Directory_settles (boundary : Nat) : Settles (fun _ => True) (zip64Directory size readRange boundary) := by
  refine settles_refuse fun _ => (read_settles ..).bind fun locator whole => ?_
  refine settles_unsigned (by omega) fun _ => settles_refuse fun _ => settles_unsigned (by omega) fun _ => settles_unsigned (by omega) fun _ => ?_
  refine settles_refuse fun _ => settles_u64 (by omega) fun _ => settles_refuse fun _ => (read_settles ..).bind fun z whole => ?_
  refine settles_unsigned (by omega) fun _ => settles_refuse fun _ => settles_u64 (by omega) fun _ => settles_refuse fun _ => ?_
  refine settles_unsigned (by omega) fun _ => settles_unsigned (by omega) fun _ => settles_refuse fun _ => ?_
  refine settles_u64 (by omega) fun _ => settles_u64 (by omega) fun _ => settles_refuse fun _ => ?_
  exact settles_u64 (by omega) fun _ => settles_u64 (by omega) fun _ => trivial

theorem locate_settles : Settles (fun _ => True) (locate size readRange) := by
  refine settles_refuse fun sized => (read_settles ..).bind fun tail whole => ?_
  have large := of_decide_eq_false sized
  refine (findEnd_settles (by omega)).bind fun e within => ?_
  refine settles_unsigned (by omega) fun _ => settles_unsigned (by omega) fun _ => settles_refuse fun _ => ?_
  refine settles_unsigned (by omega) fun _ => settles_unsigned (by omega) fun _ => settles_unsigned (by omega) fun _ =>
    settles_unsigned (by omega) fun _ => ?_
  split
  · exact zip64Directory_settles size readRange _
  exact settles_refuse fun _ => trivial
end

section

theorem split_free (path : Text) : ∀ part ∈ split path, separator ∉ part := by
  unfold split
  induction path with
  | nil => simp
  | cons c rest ih =>
    rw [splitOn_cons_eq_if_modifyHead]
    split
    · exact forall_mem_cons.mpr ⟨not_mem_nil,ih⟩
    rename_i other
    cases parts : rest.splitOn separator with
    | nil => exact absurd parts (splitOn_ne_nil _ _)
    | cons =>
      rw [parts] at ih
      refine forall_mem_cons.mpr ⟨fun inside => ?_,(forall_mem_cons.mp ih).2⟩
      rcases mem_cons.mp inside with same | inside
      · exact other (beq_iff_eq.mpr same.symm)
      exact (forall_mem_cons.mp ih).1 inside

theorem split_parent (path : Text) (some_ : 0 < depth) : split (ancestor path depth) = (split path).take depth := by
  refine splitOn_intercalate separator (fun part mem => split_free path part (mem_of_mem_take mem)) fun none => ?_
  rcases take_eq_nil_iff.mp none with zero | empty
  · omega
  exact splitOn_ne_nil _ _ empty

theorem join_prefix (parts : List Text) (depth : Nat) (some_ : 0 < depth) : join (parts.take depth) <+: join parts := by
  unfold join
  induction parts generalizing depth with
  | nil => simp
  | cons _ rest ih =>
    cases depth with
    | zero => omega
    | succ depth =>
      cases rest with
      | nil => simp
      | cons =>
        cases depth with
        | zero => simp [intercalate_cons_of_ne_nil]
        | succ depth =>
          have further := ih (depth + 1) (by omega)
          rw [take_succ_cons,intercalate_cons_of_ne_nil (by simp),intercalate_cons_of_ne_nil (by simp)]
          exact (prefix_append_right_inj _).mpr further

theorem prefix_parent (path : Text) (some_ : 0 < depth) : ancestor path depth <+: path := by
  have within := join_prefix (split path) depth some_
  rwa [show join (split path) = path from intercalate_splitOn separator] at within

theorem prefix_drive {front path : Text} (within : front <+: path) (none : drive path = false) : drive front = false := by
  obtain ⟨_,rfl⟩ := within
  rcases front with _ | ⟨a,_ | ⟨b,more⟩⟩
  · rfl
  · rfl
  exact none

theorem prefix_head {front path : Text} (within : front <+: path) (other : path.head? ≠ some c) : front.head? ≠ some c := by
  obtain ⟨_,rfl⟩ := within
  cases front with
  | nil => nofun
  | cons => exact other

theorem SafePath.parent {depth : Nat} (safe : SafePath path) (some_ : 0 < depth) : SafePath (ancestor path depth) where
  relative := ⟨prefix_head (prefix_parent path some_) safe.relative.1,prefix_drive (prefix_parent path some_) safe.relative.2⟩
  depth := by
    rw [split_parent path some_]
    exact Nat.le_trans (length_take_le' _ _) safe.depth
  parts := by
    rw [split_parent path some_]
    exact fun part mem => safe.parts part (mem_of_mem_take mem)
  plain := fun c mem => safe.plain c ((prefix_parent path some_).subset mem)

theorem normalizedPath_settles (raw : Text) : Settles SafePath (normalizedPath raw) := by
  refine settles_refuse fun fine => settles_refuse fun shaped => ?_
  obtain ⟨⟨⟨start,rooted⟩,slashes⟩,plain⟩ := by simpa only [Bool.or_eq_false_iff] using fine
  have within : (if raw.getLast? = some separator then raw.dropLast else raw) <+: raw := by
    split
    · exact dropLast_prefix raw
    exact prefix_rfl
  obtain ⟨few,fit⟩ := Bool.or_eq_false_iff.mp shaped
  have first := of_decide_eq_false start
  refine ⟨⟨prefix_head within fun is => first (.inr (.inr is)),prefix_drive within rooted⟩,Nat.not_lt.mp (of_decide_eq_false few),
    fun part mem => ?_,fun c mem => ⟨fun is => of_decide_eq_false slashes (is ▸ within.subset mem),?_⟩⟩
  · have good := of_decide_eq_false (any_eq_false.mp fit part mem |> Bool.eq_false_iff.mpr)
    exact ⟨fun is => good (.inl is),fun is => good (.inr (.inl is)),fun is => good (.inr (.inr (.inl is)))⟩
  exact Bool.eq_false_iff.mpr (any_eq_false.mp plain c (within.subset mem))
end

section
structure Tree (listing : Listing) : Prop where
  keyed : Keyed ZipDirectoryEntry.path listing.entries
  bounded : listing.entries.length ≤ 40000
  safe : ∀ entry ∈ listing.entries, SafePath entry.path
  rooted : Rooted listing.entries

def Folder (listing : Listing) (path : Text) : Prop := ∃ entry ∈ listing.entries, entry.path = path ∧ entry.kind = .folder

structure Inserted (before : Listing) (entry : ZipDirectoryEntry) (after : Listing) : Prop where
  tree : Tree after
  folders : ∀ path, Folder before path → Folder after path
  here : entry ∈ after.entries
  only : ∀ other ∈ after.entries, other ∈ before.entries ∨ other = entry

theorem insert_settles (listing : Listing) (entry : ZipDirectoryEntry) (tree : Tree listing) (safe : SafePath entry.path) (rooted : ∀ path, Ancestor path entry.path → Folder listing path)
    (folder : ∀ old ∈ listing.entries, old.path = entry.path → entry.kind = .folder) : Settles (Inserted listing entry) (insert listing entry) := by
  have placed {after : Listing} (keyed : Keyed ZipDirectoryEntry.path after.entries) (few : after.entries.length ≤ 40000)
      (here : entry ∈ after.entries) (only : ∀ other ∈ after.entries, other ∈ listing.entries ∨ other = entry)
      (kept : ∀ old ∈ listing.entries, old ∈ after.entries ∨ old.path = entry.path) : Inserted listing entry after := by
    have folders : ∀ path, Folder listing path → Folder after path := by
      rintro _ ⟨old,mem,named,is⟩
      rcases kept old mem with stays | same
      · exact ⟨old,stays,named,is⟩
      exact ⟨entry,here,same.symm.trans named,folder old mem same⟩
    refine ⟨⟨keyed,few,fun other mem => ?_,fun other mem path above => ?_⟩,folders,here,only⟩
    · rcases only other mem with old | rfl
      · exact tree.safe other old
      · exact safe
    rcases only other mem with old | rfl
    · exact folders path (tree.rooted other old path above)
    exact folders path (rooted path above)
  unfold insert
  split
  · rename_i known
    obtain ⟨old,found⟩ := Option.isSome_iff_exists.mp known
    obtain ⟨there,named⟩ := find_some found
    refine placed (tree.keyed.amend _ fun _ _ same => same.symm) (by rw [length_amend]; exact tree.bounded) ?_ (fun other there => ?_) fun other there => ?_
    · exact mem_amend.mpr (.inr ⟨old,there,named,rfl⟩)
    · rcases mem_amend.mp there with ⟨mem,_⟩ | ⟨_,_,_,rfl⟩
      · exact .inl mem
      · exact .inr rfl
    by_cases same : other.path = entry.path
    · exact .inr same
    exact .inl (mem_amend.mpr (.inl ⟨there,same⟩))
  rename_i unknown
  have absent := find_none.mp (Option.not_isSome_iff_eq_none.mp unknown)
  refine settles_refuse fun room => placed (tree.keyed.add absent) ?_ (mem_concat_self ..) (fun other mem => ?_) fun other mem => ?_
  · have := of_decide_eq_false (Bool.or_eq_false_iff.mp room).1
    unfold maxExpanded at this
    rw [length_append,length_singleton]
    omega
  · rcases mem_append.mp mem with old | new
    · exact .inl old
    · exact .inr (mem_singleton.mp new)
  exact .inl (mem_append_left _ mem)

-- The folders above a path, from the given depth on.
structure Parents (parts : List Text) (before after : Listing) : Prop where
  tree : Tree after
  folders : ∀ depth, 0 < depth → depth < parts.length → Folder after (join (parts.take depth))
  only : ∀ other ∈ after.entries, other ∈ before.entries ∨ ∃ depth, 0 < depth ∧ depth < parts.length ∧ other.path = join (parts.take depth)

theorem parent_settles (tree : Tree listing) (safe : SafePath path) (some_ : 0 < depth) (above : ∀ d, 0 < d → d < depth → Folder listing (ancestor path d))
    (fine : ((listing.get (ancestor path depth)).any fun entry => decide (entry.kind = .file)) = false) (name : Text) :
    Settles (fun after => Tree after ∧ (∀ q, Folder listing q → Folder after q) ∧ Folder after (ancestor path depth) ∧
        ∀ other ∈ after.entries, other ∈ listing.entries ∨ other.path = ancestor path depth) (ensureFolder listing (ancestor path depth) name) := by
  unfold ensureFolder
  cases found : listing.get (ancestor path depth) with
  | none =>
    have absent := find_none.mp found
    have inserted := insert_settles listing ⟨ancestor path depth,name,.folder,none⟩ tree (safe.parent some_) (fun q above_ => ?_) fun _ _ _ => rfl
    · exact inserted.weaken fun after inserted => ⟨inserted.tree,inserted.folders,⟨_,inserted.here,rfl,rfl⟩,fun other mem =>
        (inserted.only other mem).imp id fun same => congrArg ZipDirectoryEntry.path same⟩
    · obtain ⟨d,positive,shorter,rfl⟩ := above_
      show Folder listing (join ((split (ancestor path depth)).take d))
      rw [split_parent path some_] at shorter ⊢
      have less : d < depth := Nat.lt_of_lt_of_le shorter (length_take_le _ _)
      rw [take_take,Nat.min_eq_left (Nat.le_of_lt less)]
      exact above d positive less
  | some entry =>
    obtain ⟨there,named⟩ := find_some found
    have folder : entry.kind = .folder := by
      rw [found] at fine
      cases kind : entry.kind with
      | folder => rfl
      | file => simp [kind] at fine
    exact ⟨tree,fun _ => id,⟨entry,there,named,folder⟩,fun _ => .inl⟩

theorem insertParents_settles (tree : Tree listing) (safe : SafePath path) (some_ : 0 < depth) (all : depth + left = (split path).length)
    (above : ∀ d, 0 < d → d < depth → Folder listing (ancestor path d)) :
    Settles (Parents (split path) listing) (insertParents (split path) (range' depth left) listing) := by
  induction left generalizing depth listing with
  | zero => exact ⟨tree,fun d positive less => above d positive (by omega),fun _ => .inl⟩
  | succ _ ih =>
    refine settles_refuse fun fine => (parent_settles tree safe some_ above fine _).bind fun middle next => ?_
    obtain ⟨tree,folders,here,only⟩ := next
    refine (ih tree (Nat.succ_pos depth) (by omega) fun d positive less => ?_).weaken fun after parents =>
      ⟨parents.tree,parents.folders,fun other mem => ?_⟩
    · rcases Nat.lt_succ_iff_lt_or_eq.mp less with lower | rfl
      · exact folders _ (above d positive lower)
      · exact here
    rcases parents.only other mem with old | other
    · exact (only other old).imp id fun same => ⟨depth,some_,by omega,same⟩
    exact .inr other

theorem readEntry_settles (cd : Bytes) (cdOffset offset : Nat) (tree : Tree listing) :
    Settles (fun one => Tree one.2) (readEntry decode cd cdOffset offset listing) := by
  refine settles_refuse fun header => ?_
  have within := of_decide_eq_false header
  refine settles_unsigned (by omega) fun _ => settles_refuse fun _ => settles_unsigned (by omega) fun flags => settles_refuse fun _ => ?_
  refine settles_unsigned (by omega) fun nl => settles_unsigned (by omega) fun xl => settles_unsigned (by omega) fun cl =>
    settles_refuse fun record => ?_
  have inside := of_decide_eq_false record
  refine settles_refuse fun _ => (decoded_settles ..).bind fun raw _ => (normalizedPath_settles raw).bind fun path safe => ?_
  refine settles_unsigned (by omega) fun attrs => settles_unsigned (by omega) fun host => settles_refuse fun _ => settles_refuse fun _ => ?_
  refine settles_unsigned (by omega) fun _ => settles_unsigned (by omega) fun _ => settles_unsigned (by omega) fun _ =>
    settles_unsigned (by omega) fun _ => ?_
  refine (actualSizes_settles _ _ (by omega)).bind fun sizes _ => ?_
  refine settles_refuse fun _ => settles_refuse fun _ => settles_refuse fun _ => settles_refuse fun fitting => ?_
  have parts := length_pos_iff.mpr (splitOn_ne_nil separator path)
  refine (insertParents_settles tree safe (Nat.succ_pos 0) (Nat.add_sub_cancel' parts) fun d positive less => by omega).bind fun after parents => ?_
  refine Settles.bind (insert_settles { after with explicit := after.explicit++[path] } ⟨path,_,_,_⟩
    ⟨parents.tree.keyed,parents.tree.bounded,parents.tree.safe,parents.tree.rooted⟩ safe (fun q ancestor => ?_) fun old mem same => ?_)
    fun last inserted => inserted.tree
  · obtain ⟨d,positive,less,rfl⟩ := ancestor
    exact parents.folders d positive less
  rcases parents.only old mem with known | ⟨d,positive,less,parent⟩
  · have found := tree.keyed.find known
    rw [same] at found
    rw [show listing.get path = some old from found] at fitting
    have both := of_decide_eq_false fitting
    exact Decidable.not_not.mp fun other => both (.inr other)
  have short := congrArg length (split_parent path positive)
  rw [show ancestor path d = old.path from parent.symm,show old.path = path from same,length_take] at short
  omega

theorem readEntries_settles (cd : Bytes) (cdOffset count offset : Nat) (tree : Tree listing) :
    Settles (fun last => Tree last.2) (readEntries decode cd cdOffset count offset listing) := by
  induction count generalizing offset listing with
  | zero => exact tree
  | succ _ ih => exact (readEntry_settles decode cd cdOffset offset tree).bind fun one tree => ih one.1 tree
end

theorem byPath_trans (a b c : ZipDirectoryEntry) (first : byPath a b = true) (second : byPath b c = true) : byPath a c = true :=
  decide_eq_true (List.le_trans (of_decide_eq_true first) (of_decide_eq_true second))

theorem byPath_total (a b : ZipDirectoryEntry) : (byPath a b || byPath b a) = true :=
  Bool.or_eq_true_iff.mpr ((List.le_total a.path b.path).imp decide_eq_true decide_eq_true)

theorem Tree.sorted (tree : Tree listing) : SafeTree (listing.entries.mergeSort byPath) := by
  have order := mergeSort_perm listing.entries byPath
  have keyed := tree.keyed.perm order.symm
  have rooted : Rooted (listing.entries.mergeSort byPath) := fun entry mem path ancestor => by
    obtain ⟨parent,there,is⟩ := tree.rooted entry (order.subset mem) path ancestor
    exact ⟨parent,order.symm.subset there,is⟩
  refine ⟨keyed,?_,order.length_eq ▸ tree.bounded,fun entry mem => tree.safe entry (order.subset mem),rooted,fun file there is entry mem ancestor => ?_⟩
  · have climbing := pairwise_mergeSort byPath_trans byPath_total listing.entries
    refine climbing.imp₂ (fun a b upward apart => ?_) (List.pairwise_map.mp keyed)
    exact (List.le_iff_lt_or_eq.mp (of_decide_eq_true upward)).resolve_right apart
  obtain ⟨_,found,named,folder⟩ := rooted entry mem _ ancestor
  rw [keyed.unique found there named,is] at folder
  cases folder

-- Whatever the ranges hold, the reader answers, and what it lists is a tree.
theorem readIncomingZipDirectory_safe :
    ∃ result, readIncomingZipDirectory decode size readRange = .ok result ∧ ∀ entries, result = .ready entries → SafeTree entries := by
  have settled : Settles SafeTree (readDirectory decode size readRange) := by
    refine (locate_settles size readRange).bind fun d _ => settles_refuse fun _ => settles_refuse fun _ => settles_refuse fun _ => ?_
    refine (read_settles ..).bind fun cd _ => (readEntries_settles decode cd d.cdOffset d.count 0 ?_).bind fun last tree => ?_
    · exact ⟨nodup_nil,Nat.zero_le _,forall_mem_nil _,forall_mem_nil _⟩
    exact settles_refuse fun _ => tree.sorted
  unfold readIncomingZipDirectory
  cases listed : readDirectory decode size readRange with
  | ok =>
    rw [listed] at settled
    refine ⟨_,rfl,fun others same => ?_⟩
    cases same
    exact settled
  | error fault =>
    cases fault with
    | invalid => exact ⟨_,rfl,nofun⟩
    | range =>
      rw [listed] at settled
      exact settled.elim
end LedgeTopOps.IncomingZip
