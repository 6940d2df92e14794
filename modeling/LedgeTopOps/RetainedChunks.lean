import Mathlib.Data.List.Basic

namespace LedgeTopOps.RetainedChunks
open List

abbrev Bytes := List UInt8

structure Chunk where
  (chunkIndex byteOffset byteSize : Nat)
  sha256 : String

inductive Stop where
  | source_changed
  | endless

def hex64 (text : String) : Bool := text.length = 64 && text.toList.all fun c => ('a' ≤ c && c ≤ 'f') || ('0' ≤ c && c ≤ '9')

def MAX_SAFE_INTEGER : Nat := 9007199254740991

-- The total the registered chunks come to, or none where one is refused.
def total : Nat → Nat → List Chunk → Option Nat
  | _,sum,[] => some sum
  | index,sum,chunk :: rest =>
    if chunk.chunkIndex ≠ index ∨ chunk.byteOffset ≠ sum ∨ MAX_SAFE_INTEGER < chunk.byteSize ∨ chunk.byteSize = 0 ∨ hex64 chunk.sha256 = false
    then none else total (index+1) (sum+chunk.byteSize) rest

def registered (chunks : List Chunk) (byteSize : Nat) : Prop :=
  ∃ sum ∈ total 0 0 chunks, sum ≤ MAX_SAFE_INTEGER ∧ sum = byteSize

-- The verifier between two calls; the running hash is what it was fed.
structure Verifier where
  (index inChunk : Nat)
  hash : Bytes

section
variable (digest : Bytes → String) (chunks : List Chunk)

-- A turn that takes no byte would repeat itself for ever.
def update (s : Verifier) (buffer : Bytes) : Except Stop Verifier :=
  if buffer = [] then .ok s else
  match chunks[s.index]? with
  | none => .error .source_changed
  | some chunk =>
    let count := min buffer.length (chunk.byteSize-s.inChunk)
    if _empty : count = 0 then .error .endless else
    let fed := s.hash++buffer.take count
    if s.inChunk+count = chunk.byteSize then
      if digest fed ≠ chunk.sha256 then .error .source_changed else update ⟨s.index+1,0,[]⟩ (buffer.drop count)
    else update ⟨s.index,s.inChunk+count,fed⟩ (buffer.drop count)
termination_by buffer.length
decreasing_by all_goals simp only [length_drop]; omega

def finish (s : Verifier) : Except Stop Unit := if s.index ≠ chunks.length ∨ s.inChunk ≠ 0 then .error .source_changed else .ok ()

def verify (buffers : List Bytes) : Except Stop Unit :=
  if chunks = [] then .ok () else do finish chunks (← buffers.foldlM (update digest chunks) ⟨0,0,[]⟩)

-- The bytes are the chunks one after another, each with its digest.
def Whole : List Chunk → Bytes → Prop
  | [],bytes => bytes = []
  | chunk :: rest,bytes =>
    chunk.byteSize ≤ bytes.length ∧ digest (bytes.take chunk.byteSize) = chunk.sha256 ∧ Whole rest (bytes.drop chunk.byteSize)

structure Within (s : Verifier) : Prop where
  fed : s.inChunk = s.hash.length
  inside : ∀ chunk, chunks[s.index]? = some chunk → s.hash.length < chunk.byteSize
  ended : chunks[s.index]? = none → s.index = chunks.length ∧ s.hash = []

def Verdict (want : Bytes → Prop) : Except Stop Verifier → Prop
  | .ok s => Within chunks s ∧ ∀ more, want more ↔ Whole digest (chunks.drop s.index) (s.hash++more)
  | .error stop => stop = .source_changed ∧ ∀ more, ¬want more

variable {digest chunks} {buffers : List Bytes} {stream : Bytes}

theorem take_append_drop_assoc {l : List α} : l.take n++(l.drop n++more) = l++more := by rw [←append_assoc,take_append_drop]

theorem Verdict.same (verdict : Verdict digest chunks want result) (is : ∀ more, other more ↔ want more) : Verdict digest chunks other result := by
  rwa [funext fun more => propext (is more)]

theorem within_start (positive : ∀ chunk ∈ chunks, 0 < chunk.byteSize) (low : index ≤ chunks.length) : Within chunks ⟨index,0,[]⟩ := by
  refine ⟨rfl,fun chunk here => positive chunk (mem_of_getElem? here),fun none_ => ⟨?_,rfl⟩⟩
  exact Nat.le_antisymm low (getElem?_eq_none_iff.mp none_)

theorem update_verdict (positive : ∀ chunk ∈ chunks, 0 < chunk.byteSize) (within : Within chunks s) :
    Verdict digest chunks (fun more => Whole digest (chunks.drop s.index) (s.hash++buffer++more)) (update digest chunks s buffer) := by
  induction s,buffer using update.induct digest chunks with
  | case1 s =>
    rw [update,if_pos rfl]
    exact ⟨within,fun more => by rw [append_nil]⟩
  | case2 s buffer some_ missing =>
    rw [update,if_neg some_,missing]
    refine ⟨rfl,fun more whole => some_ ?_⟩
    rw [(within.ended missing).1,drop_length,(within.ended missing).2] at whole
    exact (append_eq_nil_iff.mp whole).1
  | case3 s buffer some_ chunk here count empty =>
    have room := within.inside chunk here
    have filled := length_pos_iff.mpr some_
    have fed := within.fed
    omega
  | case4 s buffer some_ chunk here count empty fed full wrong =>
    obtain ⟨inside,is⟩ := List.getElem?_eq_some_iff.mp here
    rw [update,if_neg some_,here]
    dsimp only
    rw [dif_neg empty,if_pos full,if_pos wrong]
    refine ⟨rfl,fun more whole => wrong ?_⟩
    rw [drop_eq_getElem_cons inside,is] at whole
    have cut : (s.hash++buffer++more).take chunk.byteSize = fed := by
      rw [←full,within.fed,append_assoc,take_append,take_of_length_le (by omega),take_append_of_le_length (by omega)]
      congr 2
      omega
    exact cut ▸ whole.2.1
  | case5 s buffer some_ chunk here count empty fed full right ih =>
    obtain ⟨inside,is⟩ := List.getElem?_eq_some_iff.mp here
    rw [update,if_neg some_,here]
    dsimp only
    rw [dif_neg empty,if_pos full,if_neg right]
    have length : fed.length = chunk.byteSize := by
      rw [←full,within.fed]
      simp only [fed,length_append,length_take]
      omega
    refine (ih (within_start positive (by omega))).same fun more => ?_
    have cut : s.hash++buffer++more = fed++(buffer.drop count++more) := by simp only [fed,append_assoc,take_append_drop_assoc]
    rw [drop_eq_getElem_cons inside,is,cut]
    simp only [Whole]
    rw [take_left' length,drop_left' length,length_append]
    exact ⟨fun whole => whole.2.2,fun whole => ⟨by omega,not_not.mp right,whole⟩⟩
  | case6 s buffer some_ chunk here count empty fed short ih =>
    rw [update,if_neg some_,here]
    dsimp only
    rw [dif_neg empty,if_neg short]
    have room := within.inside chunk here
    have length : fed.length = s.inChunk+count := by
      simp only [fed,length_append,length_take,within.fed]
      omega
    refine (ih ⟨length.symm,fun other there => ?_,fun missing => ?_⟩).same fun more => ?_
    · cases here.symm.trans there
      have sum := within.fed
      rw [length]
      omega
    · cases here.symm.trans missing
    have cut : s.hash++buffer++more = fed++buffer.drop count++more := by simp only [fed,append_assoc,take_append_drop_assoc]
    rw [cut]

theorem buffers_verdict (positive : ∀ chunk ∈ chunks, 0 < chunk.byteSize) (within : Within chunks s) :
    Verdict digest chunks (fun more => Whole digest (chunks.drop s.index) (s.hash++buffers.flatten++more)) (buffers.foldlM (update digest chunks) s) := by
  induction buffers generalizing s with
  | nil => exact ⟨within,fun more => by rw [flatten_nil,append_nil]⟩
  | cons buffer rest ih =>
    have first : Verdict digest chunks _ (update digest chunks s buffer) := update_verdict positive within
    rw [foldlM_cons]
    simp only [flatten_cons,←append_assoc]
    cases ran : update digest chunks s buffer with
    | error stop =>
      rw [ran] at first
      exact ⟨first.1,fun more whole => first.2 (rest.flatten++more) (by simpa only [append_assoc] using whole)⟩
    | ok next =>
      rw [ran] at first
      refine (ih first.1).same fun more => ?_
      simpa only [append_assoc] using first.2 (rest.flatten++more)

theorem total_sound (sums : total index base chunks = some byteSize) : (∀ chunk ∈ chunks, 0 < chunk.byteSize) ∧ base ≤ byteSize ∧
    (base ≤ stream.length ∧ Whole digest chunks (stream.drop base) ↔ stream.length = byteSize ∧
      ∀ chunk ∈ chunks, digest ((stream.drop chunk.byteOffset).take chunk.byteSize) = chunk.sha256) := by
  induction chunks generalizing index base with
  | nil =>
    cases sums
    refine ⟨nofun,Nat.le_refl _,fun ⟨low,whole⟩ => ⟨?_,nofun⟩,fun ⟨same,_⟩ => ⟨Nat.le_of_eq same.symm,drop_eq_nil_of_le (Nat.le_of_eq same)⟩⟩
    exact Nat.le_antisymm (drop_eq_nil_iff.mp whole) low
  | cons chunk rest ih =>
    rw [total] at sums
    split at sums
    · cases sums
    rename_i sound
    simp only [not_or,not_not] at sound
    obtain ⟨positive,low,whole⟩ := ih sums
    refine ⟨forall_mem_cons.mpr ⟨Nat.pos_of_ne_zero sound.2.2.2.1,positive⟩,by omega,?_⟩
    rw [forall_mem_cons,sound.2.1,Whole,length_drop,drop_drop]
    constructor
    · rintro ⟨_,fits,right,later⟩
      obtain ⟨length,others⟩ := whole.mp ⟨by omega,later⟩
      exact ⟨length,right,others⟩
    rintro ⟨length,right,others⟩
    obtain ⟨fits,later⟩ := whole.mpr ⟨length,others⟩
    exact ⟨by omega,by omega,right,later⟩

theorem verify_iff (some_ : chunks ≠ []) (accepted : registered chunks byteSize) (buffers : List Bytes) :
    (verify digest chunks buffers = .ok () ↔ buffers.flatten.length = byteSize ∧
      ∀ chunk ∈ chunks, digest ((buffers.flatten.drop chunk.byteOffset).take chunk.byteSize) = chunk.sha256) ∧
    (verify digest chunks buffers = .ok () ∨ verify digest chunks buffers = .error .source_changed) := by
  obtain ⟨_,sums,_,rfl⟩ := accepted
  have whole : _ ∧ _ ∧ (0 ≤ buffers.flatten.length ∧ Whole digest chunks (buffers.flatten.drop 0) ↔ _) := total_sound sums
  obtain ⟨positive,_,sound⟩ := whole
  rw [←sound,and_iff_right (Nat.zero_le _),drop_zero]
  have ran : Verdict digest chunks _ (buffers.foldlM (update digest chunks) ⟨0,0,[]⟩) := buffers_verdict positive (within_start positive (Nat.zero_le _))
  simp only [verify,if_neg some_]
  cases result : buffers.foldlM (update digest chunks) ⟨0,0,[]⟩ with
  | error stop =>
    rw [result] at ran
    cases ran.1
    exact ⟨⟨nofun,fun whole => absurd (by simpa using whole) (ran.2 [])⟩,.inr rfl⟩
  | ok s =>
    rw [result] at ran
    have last := ran.2 []
    simp only [drop_zero,nil_append,append_nil] at last
    rw [last]
    change (finish chunks s = _ ↔ _) ∧ (finish chunks s = _ ∨ finish chunks s = _)
    unfold finish
    cases here : chunks[s.index]? with
    | none =>
      obtain ⟨end_,empty⟩ := ran.1.ended here
      rw [if_neg (by rw [ran.1.fed,end_,empty]; simp),end_,drop_length,empty]
      exact ⟨⟨fun _ => rfl,fun _ => rfl⟩,.inl rfl⟩
    | some chunk =>
      obtain ⟨inside,is⟩ := List.getElem?_eq_some_iff.mp here
      rw [if_pos (.inl (Nat.ne_of_lt inside)),drop_eq_getElem_cons inside,is]
      exact ⟨⟨nofun,fun whole => absurd whole.1 (Nat.not_le.mpr (ran.1.inside chunk here))⟩,.inr rfl⟩
end

def fixedDigest (_ : Bytes) : String := "00000000000000000000000000000000000000000000000000000000000000ff"

theorem verify_iff_example : verify fixedDigest [⟨0,0,1,fixedDigest []⟩,⟨1,1,2,fixedDigest []⟩] [[7],[],[8,9]] = .ok () := by
  refine (verify_iff (by simp) ⟨3,?_,by decide,rfl⟩ _).1.mpr ⟨rfl,?_⟩
  · rfl
  · simp [fixedDigest]

def Chunk.Covers (chunk : Chunk) (position : Nat) : Prop := chunk.byteOffset ≤ position ∧ position < chunk.byteOffset+chunk.byteSize

theorem total_tiles (sums : total index base chunks = some byteSize) : base ≤ byteSize ∧
    (∀ chunk ∈ chunks, base ≤ chunk.byteOffset ∧ chunk.byteOffset+chunk.byteSize ≤ byteSize) ∧
    ∀ position, base ≤ position → position < byteSize → ∃! chunk, chunk ∈ chunks ∧ chunk.Covers position := by
  induction chunks generalizing index base with
  | nil =>
    cases sums
    exact ⟨Nat.le_refl _,nofun,fun position low high => absurd high (Nat.not_lt.mpr low)⟩
  | cons chunk rest ih =>
    rw [total] at sums
    split at sums
    · cases sums
    rename_i sound
    simp only [not_or,not_not] at sound
    obtain ⟨fits,within,tiles⟩ := ih sums
    refine ⟨by omega,forall_mem_cons.mpr ⟨by omega,fun other mem => ⟨by have := within other mem; omega,(within other mem).2⟩⟩,fun position low high => ?_⟩
    by_cases first : position < base+chunk.byteSize
    · refine ⟨chunk,⟨mem_cons_self,by omega,by omega⟩,fun other ⟨mem,covers⟩ => ?_⟩
      rcases mem_cons.mp mem with rfl | later
      · rfl
      have after := (within other later).1
      have before := covers.1
      omega
    obtain ⟨found,⟨mem,covers⟩,only⟩ := tiles position (by omega) high
    refine ⟨found,⟨mem_cons_of_mem _ mem,covers⟩,fun other ⟨listed,also⟩ => ?_⟩
    rcases mem_cons.mp listed with rfl | later
    · have before := also.2
      omega
    exact only other ⟨later,also⟩

-- Every byte of the file lies in exactly one registered chunk, and no chunk reaches beyond the file.
theorem registered_tiles (accepted : registered chunks byteSize) : (∀ position < byteSize, ∃! chunk, chunk ∈ chunks ∧ chunk.Covers position) ∧
    ∀ chunk ∈ chunks, ∀ position, chunk.Covers position → position < byteSize := by
  obtain ⟨_,sums,_,rfl⟩ := accepted
  obtain ⟨_,within,tiles⟩ := total_tiles sums
  exact ⟨fun position inside => tiles position (Nat.zero_le _) inside,fun chunk mem _ covers => Nat.lt_of_lt_of_le covers.2 (within chunk mem).2⟩

theorem registered_tiles_example : ∃! chunk : Chunk, chunk ∈ [⟨0,0,1,fixedDigest []⟩,⟨1,1,2,fixedDigest []⟩] ∧ chunk.Covers 2 :=
  (registered_tiles ⟨3,rfl,by decide,rfl⟩).1 2 (by decide)
end LedgeTopOps.RetainedChunks
