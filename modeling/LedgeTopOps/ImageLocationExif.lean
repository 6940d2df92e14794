import LedgeTopOps.LittleEndian

namespace LedgeTopOps.ImageLocationExif
open LittleEndian
open List (length_append append_nil)

-- The arithmetic of doubles, which nothing below looks into.
structure Doubles (F : Type) where
  number : Nat → F
  (add mul div : F → F → F)
  (neg round : F → F)
  (less atMost equal : F → F → Bool)
  (finite negativeZero : F → Bool)

-- The result `invalid` is an error, so that it ends every function at once.
inductive ParseResult (F : Type) where
  | ready (latitude longitude : F)
  | absent

-- A call that gives no result met the RangeError of a DataView, or its loop still runs.
inductive Stop where
  | invalid | range | running

def gpsIfdTag : Nat := 0x8825
def gpsLatitudeRef : Nat := 1
def gpsLatitude : Nat := 2
def gpsLongitudeRef : Nat := 3
def gpsLongitude : Nat := 4
def maxIfdEntries : Nat := 1024
def imageLocationExifMaxBytes : Nat := 512 * 1024

def refuse (bad : Prop) [Decidable bad] : Except Stop Unit := if bad then .error .invalid else .ok ()

-- Every offset is a sum of a few 32-bit numbers, so that it is a safe integer.
abbrev hasBytes (bytes : Bytes) (offset length : Nat) : Prop := offset + length ≤ bytes.length

def ascii (bytes : Bytes) (offset length : Nat) : Option Bytes :=
  if hasBytes bytes offset length then some (slice offset length bytes) else none

abbrev startsWith (bytes : Bytes) (offset : Nat) (expected : Bytes) : Prop :=
  hasBytes bytes offset expected.length ∧ slice offset expected.length bytes = expected

def byteAt (bytes : Bytes) (offset : Nat) : Except Stop UInt8 :=
  match bytes[offset]? with
  | some byte => .ok byte
  | none => .error .invalid

def getUint (width : Nat) (bytes : Bytes) (offset : Nat) (littleEndian : Bool) : Except Stop Nat :=
  if offset + width ≤ bytes.length then
    .ok (ofLe (if littleEndian then slice offset width bytes else (slice offset width bytes).reverse))
  else .error .range

def getUint16 := getUint 2
def getUint32 := getUint 4

structure IfdEntry where
  (tag type count valueOffset valueFieldOffset : Nat)

def readEntry (bytes : Bytes) (littleEndian : Bool) (offset index : Nat) : Except Stop IfdEntry := do
  let entryOffset := offset + 2 + index * 12
  let tag ← getUint16 bytes entryOffset littleEndian
  let type ← getUint16 bytes (entryOffset + 2) littleEndian
  let count ← getUint32 bytes (entryOffset + 4) littleEndian
  let valueOffset ← getUint32 bytes (entryOffset + 8) littleEndian
  pure ⟨tag,type,count,valueOffset,entryOffset + 8⟩

def readIfd (bytes : Bytes) (littleEndian : Bool) (offset : Nat) : Except Stop (List IfdEntry) := do
  refuse ¬hasBytes bytes offset 2
  let count ← getUint16 bytes offset littleEndian
  refuse (maxIfdEntries < count)
  refuse ¬hasBytes bytes (offset + 2) (count * 12 + 4)
  (List.range count).mapM (readEntry bytes littleEndian offset)

def readReference (positive negative : UInt8) (bytes : Bytes) (entry : IfdEntry) : Except Stop UInt8 := do
  refuse (entry.type ≠ 2 ∨ entry.count ≠ 2)
  let first ← byteAt bytes entry.valueFieldOffset
  let second ← byteAt bytes (entry.valueFieldOffset + 1)
  refuse (second ≠ 0 ∨ (first ≠ positive ∧ first ≠ negative))
  pure first

variable {F : Type} (fl : Doubles F)

def readValue (bytes : Bytes) (littleEndian : Bool) (offset : Nat) : Except Stop F := do
  let numerator ← getUint32 bytes offset littleEndian
  let denominator ← getUint32 bytes (offset + 4) littleEndian
  refuse (denominator = 0)
  let value := fl.div (fl.number numerator) (fl.number denominator)
  refuse (fl.finite value = false)
  pure value

def coordinate (maxDegrees degrees minutes seconds : F) : Except Stop F := do
  let zero := fl.number 0
  let sixty := fl.number 60
  refuse (fl.less degrees zero || fl.less maxDegrees degrees || fl.less minutes zero || fl.atMost sixty minutes ||
    fl.less seconds zero || fl.atMost sixty seconds ||
    (fl.equal degrees maxDegrees && (!fl.equal minutes zero || !fl.equal seconds zero)))
  let sum := fl.add (fl.add degrees (fl.div minutes sixty)) (fl.div seconds (fl.number 3600))
  refuse (!fl.finite sum || !fl.atMost sum maxDegrees)
  pure sum

def readCoordinate (maxDegrees : Nat) (bytes : Bytes) (littleEndian : Bool) (entry : IfdEntry) : Except Stop F := do
  refuse (entry.type ≠ 5 ∨ entry.count ≠ 3)
  refuse ¬hasBytes bytes entry.valueOffset 24
  let degrees ← readValue fl bytes littleEndian entry.valueOffset
  let minutes ← readValue fl bytes littleEndian (entry.valueOffset + 8)
  let seconds ← readValue fl bytes littleEndian (entry.valueOffset + 16)
  coordinate fl (fl.number maxDegrees) degrees minutes seconds

def roundCoordinate (value : F) : F :=
  let rounded := fl.div (fl.round (fl.mul value (fl.number 1000000))) (fl.number 1000000)
  if fl.negativeZero rounded then fl.number 0 else rounded

def outside (limit : Nat) (value : F) : Bool :=
  !fl.finite value || fl.less value (fl.neg (fl.number limit)) || fl.less (fl.number limit) value

def north : UInt8 := 0x4E
def south : UInt8 := 0x53
def east : UInt8 := 0x45
def west : UInt8 := 0x57

def located (latRef lonRef : UInt8) (lat lon : F) : Except Stop (ParseResult F) := do
  let roundedLatitude := roundCoordinate fl (if latRef = south then fl.neg lat else lat)
  let roundedLongitude := roundCoordinate fl (if lonRef = west then fl.neg lon else lon)
  refuse (outside fl 90 roundedLatitude || outside fl 180 roundedLongitude)
  pure (.ready roundedLatitude roundedLongitude)

def tagged (ifd : List IfdEntry) (tag : Nat) : List IfdEntry := ifd.filter fun entry => entry.tag = tag

def single : List IfdEntry → Except Stop IfdEntry
  | [entry] => .ok entry
  | _ => .error .invalid

-- Two values are both read before either may be missing.
def both (first : Except Stop α) (second : Except Stop β) : Except Stop (α × β) :=
  match first,second with
  | .ok a,.ok b => .ok (a,b)
  | .error .invalid,.error stop => .error stop
  | .error stop,_ | _,.error stop => .error stop

def readGps (bytes : Bytes) (littleEndian : Bool) (gpsIfd : List IfdEntry) : Except Stop (ParseResult F) :=
  let latitudeRef := tagged gpsIfd gpsLatitudeRef
  let latitude := tagged gpsIfd gpsLatitude
  let longitudeRef := tagged gpsIfd gpsLongitudeRef
  let longitude := tagged gpsIfd gpsLongitude
  if latitudeRef.length + latitude.length + longitudeRef.length + longitude.length = 0 then pure .absent else do
  let latitudeRef ← single latitudeRef
  let latitude ← single latitude
  let longitudeRef ← single longitudeRef
  let longitude ← single longitude
  let refs := both (readReference north south bytes latitudeRef) (readReference east west bytes longitudeRef)
  let (refs,lat,lon) ← both refs (both (readCoordinate fl 90 bytes littleEndian latitude) (readCoordinate fl 180 bytes littleEndian longitude))
  located fl refs.1 refs.2 lat lon

def intel : Bytes := [0x49,0x49]
def motorola : Bytes := [0x4D,0x4D]

def parseTiffGps (bytes : Bytes) : Except Stop (ParseResult F) := do
  refuse ¬hasBytes bytes 0 8
  let byteOrder := ascii bytes 0 2
  refuse (byteOrder ≠ some intel ∧ byteOrder ≠ some motorola)
  let littleEndian := decide (byteOrder = some intel)
  let magic ← getUint16 bytes 2 littleEndian
  refuse (magic ≠ 42)
  let firstIfdOffset ← getUint32 bytes 4 littleEndian
  refuse (firstIfdOffset < 8)
  let firstIfd ← readIfd bytes littleEndian firstIfdOffset
  let gpsPointers := tagged firstIfd gpsIfdTag
  if gpsPointers.length = 0 then pure .absent else do
  let pointer ← single gpsPointers
  refuse (pointer.type ≠ 4 ∨ pointer.count ≠ 1 ∨ pointer.valueOffset < 8)
  let gpsIfd ← readIfd bytes littleEndian pointer.valueOffset
  readGps fl bytes littleEndian gpsIfd

def exif : Bytes := [0x45,0x78,0x69,0x66,0,0]

def parseExifPayload (payload : Bytes) : Except Stop (ParseResult F) :=
  parseTiffGps fl (if startsWith payload 0 exif then payload.drop 6 else payload)

-- Where the run of fill bytes that starts at an offset ends.
def skipFill (bytes : Bytes) (offset : Nat) : Nat := offset + ((bytes.drop offset).takeWhile (· == 0xFF)).length

def jpegSegments (bytes : Bytes) : Nat → Nat → Except Stop (ParseResult F)
  | 0,_ => .error .running
  | fuel + 1,offset => do
    let fill ← byteAt bytes offset
    refuse (fill ≠ 0xFF)
    let marker ← byteAt bytes (skipFill bytes offset)
    let offset := skipFill bytes offset + 1
    if marker = 0xD9 ∨ marker = 0xDA then pure .absent else
    if marker = 0x01 ∨ (0xD0 ≤ marker ∧ marker ≤ 0xD7) then jpegSegments bytes fuel offset else do
    refuse ¬hasBytes bytes offset 2
    let length := ofLe (slice offset 2 bytes).reverse
    refuse (length < 2)
    refuse ¬hasBytes bytes offset length
    if marker = 0xE1 ∧ startsWith bytes (offset + 2) exif then parseExifPayload fl (slice (offset + 2) (length - 2) bytes)
    else jpegSegments bytes fuel (offset + length)

def parseJpeg (bytes : Bytes) : Except Stop (ParseResult F) := jpegSegments fl bytes (bytes.length + 1) 2

def exifChunk : Bytes := [0x65,0x58,0x49,0x66]
def endChunk : Bytes := [0x49,0x45,0x4E,0x44]

def pngChunks (bytes : Bytes) : Nat → Nat → Except Stop (ParseResult F)
  | 0,_ => .error .running
  | fuel + 1,offset => do
    refuse ¬hasBytes bytes offset 12
    let length ← getUint32 bytes offset false
    let type := ascii bytes (offset + 4) 4
    refuse (bytes.length < offset + 12 + length)
    if type = some exifChunk then parseExifPayload fl (slice (offset + 8) length bytes) else
    if type = some endChunk then (do refuse (length ≠ 0); pure .absent) else
    pngChunks bytes fuel (offset + 12 + length)

def parsePng (bytes : Bytes) : Except Stop (ParseResult F) := pngChunks fl bytes (bytes.length + 1) 8

def exifType : Bytes := [0x45,0x58,0x49,0x46]

def webpChunks (bytes : Bytes) (declaredEnd limit : Nat) : Nat → Nat → Except Stop (ParseResult F)
  | 0,_ => .error .running
  | fuel + 1,offset =>
    if limit ≤ offset then (do refuse ¬(offset = limit ∧ declaredEnd ≤ bytes.length); pure .absent) else do
    refuse (limit < offset + 8)
    let type := ascii bytes offset 4
    let length ← getUint32 bytes (offset + 4) true
    let dataStart := offset + 8
    refuse (limit < dataStart + length)
    if type = some exifType then parseExifPayload fl (slice dataStart length bytes) else do
    let paddedLength := length + length % 2
    refuse (limit < dataStart + paddedLength)
    webpChunks bytes declaredEnd limit fuel (dataStart + paddedLength)

def parseWebp (bytes : Bytes) : Except Stop (ParseResult F) := do
  refuse ¬hasBytes bytes 0 12
  let declaredSize ← getUint32 bytes 4 true
  refuse (declaredSize < 4)
  let declaredEnd := 8 + declaredSize
  webpChunks fl bytes declaredEnd (min declaredEnd bytes.length) (bytes.length + 1) 12

def jpegSignature : Bytes := [0xFF,0xD8]
def pngSignature : Bytes := [0x89,0x50,0x4E,0x47,0x0D,0x0A,0x1A,0x0A]
def riff : Bytes := [0x52,0x49,0x46,0x46]
def webp : Bytes := [0x57,0x45,0x42,0x50]

def parseImageGps (bytes : Bytes) : Except Stop (ParseResult F) := do
  refuse (imageLocationExifMaxBytes < bytes.length)
  if startsWith bytes 0 jpegSignature then parseJpeg fl bytes else
  if startsWith bytes 0 pngSignature then parsePng fl bytes else
  if startsWith bytes 0 riff ∧ ascii bytes 8 4 = some webp then parseWebp fl bytes else
  if startsWith bytes 0 exif ∨ ascii bytes 0 2 = some intel ∨ ascii bytes 0 2 = some motorola then parseExifPayload fl bytes else
  pure .absent

section
variable {p s : Bytes}

def Extends (before after : Except Stop α) : Prop := before = .error .invalid ∨ ∃ value, before = .ok value ∧ after = .ok value

theorem Extends.given (value : α) : Extends (.ok value) (.ok value) := .inr ⟨value,rfl,rfl⟩

theorem Extends.bind (step : Extends before after) (rest : ∀ value, Extends (next value) (next' value)) : Extends (before >>= next) (after >>= next') := by
  rcases step with rfl | ⟨value,rfl,rfl⟩
  · exact .inl rfl
  exact rest value

theorem Extends.check {bad bad' : Prop} [Decidable bad] [Decidable bad']
    (fine : ¬bad → ¬bad' ∧ Extends (next ()) (next' ())) : Extends (refuse bad >>= next) (refuse bad' >>= next') := by
  unfold refuse
  split
  · exact .inl rfl
  rename_i good
  rw [if_neg (fine good).1]
  exact (fine good).2

theorem Extends.guard {bad : Prop} [Decidable bad] (fine : ¬bad → Extends (next ()) (next' ())) :
    Extends (refuse bad >>= next) (refuse bad >>= next') := .check fun good => ⟨good,fine good⟩

theorem Extends.ite {cond : Prop} [Decidable cond] (yes : Extends a b) (no : Extends before after) :
    Extends (if cond then a else before) (if cond then b else after) := by
  split
  · exact yes
  exact no

theorem hasBytes_append (inside : hasBytes p offset length) : hasBytes (p++s) offset length := by
  rw [hasBytes,length_append]
  exact Nat.le_trans inside (Nat.le_add_right ..)

theorem Extends.inside (rest : hasBytes p offset length → Extends (next ()) (next' ())) :
    Extends (refuse (¬hasBytes p offset length) >>= next) (refuse (¬hasBytes (p++s) offset length) >>= next') :=
  .check fun held => ⟨not_not_intro (hasBytes_append (Decidable.not_not.mp held)),rest (Decidable.not_not.mp held)⟩

theorem Extends.both (first : Extends a a') (second : Extends b b') : Extends (both a b) (both a' b') := by
  rcases first with rfl | ⟨x,rfl,rfl⟩
  · rcases second with rfl | ⟨y,rfl,_⟩ <;> exact .inl rfl
  rcases second with rfl | ⟨y,rfl,rfl⟩
  · exact .inl rfl
  exact .given _

theorem extends_mapM {l : List ι} (each : ∀ i ∈ l, Extends (f i) (g i)) : Extends (l.mapM f) (l.mapM g) := by
  induction l with
  | nil => exact .given []
  | cons i _ ih =>
    rw [List.mapM_cons,List.mapM_cons]
    exact (each i List.mem_cons_self).bind fun first => (ih fun j mem => each j (List.mem_cons_of_mem i mem)).bind fun _ => .given _

theorem slice_append (inside : hasBytes p offset length) : slice offset length (p++s) = slice offset length p := by
  unfold slice
  rw [List.drop_append_of_le_length (by omega),List.take_append_of_le_length (by rw [List.length_drop]; omega)]

theorem ascii_append (inside : hasBytes p offset length) : ascii (p++s) offset length = ascii p offset length := by
  rw [ascii,ascii,if_pos (hasBytes_append inside),if_pos inside,slice_append inside]

theorem startsWith_append (inside : hasBytes p offset expected.length) : startsWith (p++s) offset expected ↔ startsWith p offset expected := by
  rw [startsWith,startsWith,slice_append inside]
  exact and_congr_left' ⟨fun _ => inside,hasBytes_append⟩

theorem byteAt_extends (p s : Bytes) (offset : Nat) : Extends (byteAt p offset) (byteAt (p++s) offset) := by
  unfold byteAt
  cases read : p[offset]? with
  | none => exact .inl rfl
  | some =>
    rw [List.getElem?_append_left (List.getElem?_eq_some_iff.mp read).1,read]
    exact .given _

theorem getUint_extends (inside : hasBytes p offset width) (littleEndian : Bool) :
    Extends (getUint width p offset littleEndian) (getUint width (p++s) offset littleEndian) :=
  .inr ⟨_,if_pos inside,by rw [getUint,if_pos (hasBytes_append inside),slice_append inside]⟩

theorem readIfd_extends (p s : Bytes) (littleEndian : Bool) (offset : Nat) : Extends (readIfd p littleEndian offset) (readIfd (p++s) littleEndian offset) := by
  refine .inside fun start => (getUint_extends start _).bind fun count => .guard fun _ => .inside fun whole => ?_
  refine extends_mapM fun index mem => ?_
  have := List.mem_range.mp mem
  exact (getUint_extends (by omega) _).bind fun tag => (getUint_extends (by omega) _).bind fun type =>
    (getUint_extends (by omega) _).bind fun count => (getUint_extends (by omega) _).bind fun value => .given _

theorem readReference_extends (positive negative : UInt8) (p s : Bytes) (entry : IfdEntry) :
    Extends (readReference positive negative p entry) (readReference positive negative (p++s) entry) :=
  .guard fun _ => (byteAt_extends ..).bind fun _ => (byteAt_extends ..).bind fun _ => .guard fun _ => .given _

theorem readValue_extends (inside : hasBytes p offset 8) (littleEndian : Bool) :
    Extends (readValue fl p littleEndian offset) (readValue fl (p++s) littleEndian offset) :=
  (getUint_extends (by omega) _).bind fun _ => (getUint_extends (by omega) _).bind fun _ => .guard fun _ => .guard fun _ => .given _

theorem readCoordinate_extends (maxDegrees : Nat) (p s : Bytes) (littleEndian : Bool) (entry : IfdEntry) :
    Extends (readCoordinate fl maxDegrees p littleEndian entry) (readCoordinate fl maxDegrees (p++s) littleEndian entry) := by
  refine .guard fun _ => .inside fun whole => (readValue_extends fl (by omega) _).bind fun degrees => ?_
  refine (readValue_extends fl (by omega) _).bind fun minutes => (readValue_extends fl (by omega) _).bind fun seconds => ?_
  exact .guard fun _ => .guard fun _ => .given _

theorem single_extends (entries : List IfdEntry) : Extends (single entries) (single entries) := by
  rcases entries with _ | ⟨entry,_ | _⟩
  · exact .inl rfl
  · exact .given entry
  exact .inl rfl

theorem readGps_extends (p s : Bytes) (littleEndian : Bool) (gpsIfd : List IfdEntry) :
    Extends (readGps fl p littleEndian gpsIfd) (readGps fl (p++s) littleEndian gpsIfd) := by
  refine .ite (.given _) ?_
  refine (single_extends _).bind fun latitudeRef => (single_extends _).bind fun latitude => (single_extends _).bind fun longitudeRef =>
    (single_extends _).bind fun longitude => ?_
  have refs := (readReference_extends north south p s latitudeRef).both (readReference_extends east west p s longitudeRef)
  have degrees := (readCoordinate_extends fl 90 p s littleEndian latitude).both (readCoordinate_extends fl 180 p s littleEndian longitude)
  exact (refs.both degrees).bind fun _ => .guard fun _ => .given _

theorem parseTiffGps_extends (p s : Bytes) : Extends (parseTiffGps fl p) (parseTiffGps fl (p++s)) := by
  refine .inside fun header => ?_
  rw [ascii_append (show hasBytes p 0 2 by omega)]
  refine .guard fun _ => (getUint_extends (by omega) _).bind fun magic => .guard fun _ => (getUint_extends (by omega) _).bind fun first => ?_
  refine .guard fun _ => (readIfd_extends p s ..).bind fun firstIfd => ?_
  refine .ite (.given _) ((single_extends _).bind fun pointer => .guard fun _ => (readIfd_extends p s ..).bind fun gpsIfd => ?_)
  exact readGps_extends fl p s _ gpsIfd

theorem parseExifPayload_extends (same : startsWith (p++s) 0 exif ↔ startsWith p 0 exif) : Extends (parseExifPayload fl p) (parseExifPayload fl (p++s)) := by
  unfold parseExifPayload
  simp only [same]
  split
  · rename_i marked
    rw [List.drop_append_of_le_length (by simpa [exif] using marked.1)]
    exact parseTiffGps_extends fl _ s
  exact parseTiffGps_extends fl p s

theorem parseExifPayload_given (payload : Bytes) : Extends (parseExifPayload fl payload) (parseExifPayload fl payload) := by
  have same := parseExifPayload_extends fl (p:=payload) (s:=[]) (by rw [append_nil])
  rwa [append_nil] at same

theorem skipFill_append (inside : offset ≤ p.length) (ends : skipFill p offset < p.length) : skipFill (p++s) offset = skipFill p offset := by
  unfold skipFill at ends ⊢
  rw [List.drop_append_of_le_length inside,List.takeWhile_append,if_neg]
  rw [List.length_drop]
  omega

-- Where the prefix ends within the marker of a short segment, what follows the segment is no
-- fill byte if the longer text has that marker there.
theorem cut_marker (present : startsWith (p++s) offset exif) (cut : p.length < offset + 6) (ahead : offset ≤ next) : p[next]? ≠ some 0xFF := by
  intro fill
  obtain ⟨short,_⟩ := List.getElem?_eq_some_iff.mp fill
  have place : (slice offset 6 (p++s))[next - offset]? = p[next]? := by
    unfold slice
    rw [List.getElem?_take_of_lt (by omega),List.getElem?_drop,Nat.add_sub_cancel' ahead,List.getElem?_append_left short]
  rw [show slice offset 6 (p++s) = exif from present.2,fill] at place
  have few : next - offset < 6 := by omega
  generalize next - offset = k at place few
  match k,few with
  | 0,_ | 1,_ | 2,_ | 3,_ | 4,_ | 5,_ => exact absurd place (by decide)

theorem jpegSegments_extends (enough : p.length < fuel + offset) (inside : offset ≤ p.length) (more : fuel ≤ fuel') :
    Extends (jpegSegments fl p fuel offset) (jpegSegments fl (p++s) fuel' offset) := by
  induction fuel generalizing offset fuel' with
  | zero => omega
  | succ fuel ih =>
    obtain ⟨fuel',rfl⟩ : ∃ k, fuel' = k + 1 := ⟨fuel' - 1,by omega⟩
    refine (byteAt_extends ..).bind fun fill => .guard fun _ => ?_
    cases read : p[skipFill p offset]? with
    | none => rw [byteAt,read]; exact .inl rfl
    | some marker =>
      obtain ⟨held,_⟩ := List.getElem?_eq_some_iff.mp read
      have beyond : offset ≤ skipFill p offset := Nat.le_add_right ..
      rw [skipFill_append inside held]
      refine (byteAt_extends ..).bind fun marker => ?_
      generalize skipFill p offset = o at held beyond
      refine .ite (.given _) (.ite (ih (by omega) (by omega) (by omega)) (.inside fun sized => ?_))
      rw [slice_append sized]
      refine .guard fun two => .inside fun whole => ?_
      by_cases room : hasBytes p (o + 1 + 2) exif.length
      · simp only [startsWith_append room]
        rw [slice_append (by omega)]
        exact .ite (parseExifPayload_given fl _) (ih (by omega) (by omega) (by omega))
      -- The segment is too short for the marker, which only the longer text may seem to have.
      rw [if_neg fun marked => room marked.2.1]
      by_cases seems : marker = 0xE1 ∧ startsWith (p++s) (o + 1 + 2) exif
      · left
        have other := cut_marker seems.2 (Nat.not_le.mp room) (show o + 1 + 2 ≤ o + 1 + ofLe (slice (o + 1) 2 p).reverse by omega)
        obtain ⟨fuel,rfl⟩ : ∃ k, fuel = k + 1 := ⟨fuel - 1,by omega⟩
        unfold jpegSegments byteAt
        cases after : p[o + 1 + ofLe (slice (o + 1) 2 p).reverse]? with
        | none => rfl
        | some byte =>
          show (refuse (byte ≠ 0xFF) >>= _) = _
          rw [refuse,if_pos fun fill => other (after.trans (congrArg some fill))]
          rfl
      rw [if_neg seems]
      exact ih (by omega) (by omega) (by omega)

theorem pngChunks_extends (enough : p.length < fuel + offset) (inside : offset ≤ p.length) (more : fuel ≤ fuel') :
    Extends (pngChunks fl p fuel offset) (pngChunks fl (p++s) fuel' offset) := by
  induction fuel generalizing offset fuel' with
  | zero => omega
  | succ _ ih =>
    obtain ⟨fuel',rfl⟩ : ∃ k, fuel' = k + 1 := ⟨fuel' - 1,by omega⟩
    refine .inside fun header => (getUint_extends (by omega) _).bind fun length => .check fun whole => ⟨by rw [length_append]; omega,?_⟩
    rw [ascii_append (by omega),slice_append (by omega)]
    exact .ite (parseExifPayload_given fl _) (.ite (.guard fun _ => .given _) (ih (by omega) (by omega) (by omega)))

-- The prefix may end before the declared end, but then nothing is absent.
theorem webpChunks_extends (enough : p.length < fuel + offset) (inside : offset ≤ p.length) (more : fuel ≤ fuel')
    (cut : limit ≤ p.length) (within : limit ≤ limit') (ends : declaredEnd ≤ p.length → limit' = limit) :
    Extends (webpChunks fl p declaredEnd limit fuel offset) (webpChunks fl (p++s) declaredEnd limit' fuel' offset) := by
  induction fuel generalizing offset fuel' with
  | zero => omega
  | succ _ ih =>
    obtain ⟨fuel',rfl⟩ : ∃ k, fuel' = k + 1 := ⟨fuel' - 1,by omega⟩
    unfold webpChunks
    by_cases past : limit ≤ offset
    · rw [if_pos past]
      by_cases done : offset = limit ∧ declaredEnd ≤ p.length
      · have same := ends done.2
        rw [if_pos (by omega)]
        exact .check fun held => ⟨not_not_intro ⟨by omega,by rw [length_append]; omega⟩,.given _⟩
      rw [refuse,if_pos done]
      exact .inl rfl
    rw [if_neg past,if_neg (show ¬limit' ≤ offset by omega)]
    refine .check fun header => ⟨by omega,(getUint_extends (by omega) _).bind fun length => .check fun whole => ⟨by omega,?_⟩⟩
    rw [ascii_append (by omega),slice_append (by omega)]
    exact .ite (parseExifPayload_given fl _) (.check fun padded => ⟨by omega,ih (by omega) (by omega) (by omega)⟩)

theorem parseWebp_extends (p s : Bytes) : Extends (parseWebp fl p) (parseWebp fl (p++s)) := by
  refine .inside fun header => (getUint_extends (by omega) _).bind fun declaredSize => .guard fun _ => ?_
  have longer : p.length ≤ (p++s).length := length_append ▸ Nat.le_add_right ..
  exact webpChunks_extends fl (by omega) (by omega) (by omega) (by omega) (by omega) fun ended => by omega

-- Twelve bytes are enough to tell the containers apart.
theorem parseImageGps_extends (known : 12 ≤ p.length ∨ s = []) (small : (p++s).length ≤ imageLocationExifMaxBytes) :
    Extends (parseImageGps fl p) (parseImageGps fl (p++s)) := by
  have longer : p.length ≤ (p++s).length := length_append ▸ Nat.le_add_right ..
  have marked (expected : Bytes) (inside : expected.length ≤ 12) : startsWith (p++s) 0 expected ↔ startsWith p 0 expected := by
    rcases known with known | rfl
    · exact startsWith_append (by omega)
    rw [append_nil]
  have read (offset length : Nat) (inside : offset + length ≤ 12) : ascii (p++s) offset length = ascii p offset length := by
    rcases known with known | rfl
    · exact ascii_append (by omega)
    rw [append_nil]
  refine .check fun _ => ⟨Nat.not_lt.mpr small,?_⟩
  simp only [marked jpegSignature (by decide),marked pngSignature (by decide),marked riff (by decide),marked exif (by decide),
    read 8 4 (by decide),read 0 2 (by decide)]
  split
  · rename_i jpeg
    exact jpegSegments_extends fl (by omega) (by simpa [jpegSignature] using jpeg.1) (by omega)
  split
  · rename_i png
    exact pngChunks_extends fl (by omega) (by simpa [pngSignature] using png.1) (by omega)
  split
  · exact parseWebp_extends fl p s
  split
  · exact parseExifPayload_extends fl (marked exif (by decide))
  exact .given _
end

-- Every image is read to an end, and what a prefix of it decides, the longer ones decide alike.
theorem parseImageGps_prefix_stable :
    (∀ bytes : Bytes, bytes.length ≤ imageLocationExifMaxBytes → parseImageGps fl bytes = .error .invalid ∨ ∃ result, parseImageGps fl bytes = .ok result) ∧
    ∀ p s : Bytes, 12 ≤ p.length → (p++s).length ≤ imageLocationExifMaxBytes →
      ∀ result, parseImageGps fl p = .ok result → parseImageGps fl (p++s) = .ok result := by
  refine ⟨fun bytes small => ?_,fun p s known small result read => ?_⟩
  · have given := parseImageGps_extends fl (.inr rfl) (show (bytes++[]).length ≤ _ by rwa [append_nil])
    exact given.imp_right fun ⟨value,first,_⟩ => ⟨value,first⟩
  rcases parseImageGps_extends fl (.inl known) small with invalid | ⟨value,first,second⟩
  · cases read.symm.trans invalid
  rw [second,←read,first]

def unit : Doubles Unit :=
  ⟨fun _ => (),fun _ _ => (),fun _ _ => (),fun _ _ => (),id,id,fun _ _ => false,fun _ _ => true,fun _ _ => true,fun _ => true,fun _ => false⟩

theorem parseImageGps_prefix_stable_example : parseImageGps unit ([0xFF,0xD8,0xFF,0xD9,0,0,0,0,0,0,0,0]++[0xFF,0xE1]) = .ok .absent :=
  (parseImageGps_prefix_stable unit).2 _ _ (by decide) (by decide) _ rfl
end LedgeTopOps.ImageLocationExif
