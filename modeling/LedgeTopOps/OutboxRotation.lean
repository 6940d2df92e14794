import LedgeTopOps.BoundedRounds
import Mathlib.Data.List.Perm.Subperm
import Mathlib.Data.List.ProdSigma
import Mathlib.Data.List.Rotate

namespace LedgeTopOps.OutboxRotation
open List BoundedRounds

inductive QueueKind where
  | profile_generation_recovery | onboarding_create_recovery | profile | relationship | binding_continuation | lifecycle | create_observation
deriving DecidableEq

inductive CommandKind where
  | normal | generation_recovery
deriving DecidableEq

abbrev Lane := QueueKind × CommandKind

structure Candidate where
  queueKind : QueueKind
  commandKind : CommandKind
  (commandId sourceId : String)
  position : Nat

def Candidate.lane (c : Candidate) : Lane := (c.queueKind,c.commandKind)

def ROTATION_INTERVAL_MS : Int := 5 * 60000

def tick (rotationTime : Int) : Nat := (rotationTime / ROTATION_INTERVAL_MS).toNat

def queues (tick : Nat) : List Lane :=
  if tick % 2 = 0 then
    [(.profile,.normal),(.profile_generation_recovery,.normal),(.onboarding_create_recovery,.normal),(.relationship,.normal),
      (.relationship,.generation_recovery),(.binding_continuation,.normal),(.lifecycle,.normal),(.create_observation,.normal)]
  else
    [(.create_observation,.normal),(.lifecycle,.normal),(.binding_continuation,.normal),(.relationship,.normal),
      (.relationship,.generation_recovery),(.profile,.normal),(.onboarding_create_recovery,.normal),(.profile_generation_recovery,.normal)]

-- What the maps of groups hold at a place: of two candidates the one set last.
def grouped (candidates : List Candidate) (position : Nat) (sourceId : String) (lane : Lane) : Option Candidate :=
  candidates.reverse.find? fun c => c.sourceId = sourceId ∧ c.lane = lane ∧ c.position = position

def pushLanes (maxCommands : Nat) (group : Lane → Option Candidate) : List Candidate → List Lane → List Candidate
  | ordered,[] => ordered
  | ordered,lane :: rest =>
    let pushed := ordered++(group lane).toList
    if maxCommands ≤ pushed.length then pushed else pushLanes maxCommands group pushed rest

def fairOrder (candidates : List Candidate) (sourceIds : List String) (rotationTime : Int) (maxCommands : Nat) : List Candidate :=
  if candidates.length = 0 ∨ sourceIds.length = 0 then [] else
  let sourceStart := tick rotationTime % sourceIds.length
  upTo maxCommands (fun ordered position => upTo maxCommands (fun ordered offset =>
      pushLanes maxCommands (grouped candidates position (sourceIds.getD ((sourceStart+offset) % sourceIds.length) ""))
        ordered (queues (tick rotationTime)))
    ordered (range sourceIds.length)) [] (range' 1 maxCommands)

theorem pushLanes_fills (room : ordered.length < maxCommands) :
    pushLanes maxCommands group ordered lanes = (ordered++lanes.filterMap group).take maxCommands := by
  induction lanes generalizing ordered with
  | nil => simp [pushLanes,take_of_length_le room.le]
  | cons lane rest ih =>
    have pushed : ordered++(lane :: rest).filterMap group = ordered++(group lane).toList++rest.filterMap group := by
      cases found : group lane <;> simp [found]
    have step : (group lane).toList.length ≤ 1 := by cases group lane <;> simp
    rw [pushed]
    simp only [pushLanes]
    split
    · rename_i full
      have exactly : (ordered++(group lane).toList).length = maxCommands := by
        rw [length_append] at full ⊢
        omega
      rw [take_append_of_le_length exactly.ge,take_of_length_le exactly.le]
    · rename_i more
      exact ih (not_le.mp more)

def line (candidates : List Candidate) (sourceIds : List String) (tick maxCommands : Nat) : List Candidate :=
  (range' 1 maxCommands).flatMap fun position => (sourceIds.rotate (tick % sourceIds.length)).flatMap fun sourceId =>
    (queues tick).filterMap (grouped candidates position sourceId)

theorem rotated_sources {sourceIds : List String} :
    (range sourceIds.length).map (fun offset => sourceIds.getD ((start+offset) % sourceIds.length) "") = sourceIds.rotate start := by
  refine ext_getElem (by simp) fun i inside _ => ?_
  have positive : 0 < sourceIds.length := by simp at inside; omega
  simp [getElem_rotate,Nat.mod_lt _ positive,Nat.add_comm]

section
variable {candidates : List Candidate} {sourceIds : List String}

theorem fairOrder_line (some_ : candidates ≠ []) (nonempty : sourceIds ≠ []) :
    fairOrder candidates sourceIds time maxCommands = (line candidates sourceIds (tick time) maxCommands).take maxCommands := by
  rw [fairOrder,if_neg (by simp [some_,nonempty])]
  have lanes : ∀ position, Fills maxCommands (fun ordered offset => pushLanes maxCommands (grouped candidates position
      (sourceIds.getD ((tick time % sourceIds.length+offset) % sourceIds.length) "")) ordered (queues (tick time))) fun offset =>
      (queues (tick time)).filterMap (grouped candidates position (sourceIds.getD ((tick time % sourceIds.length+offset) % sourceIds.length) "")) :=
    fun _ _ _ room => pushLanes_fills room
  rw [upTo_fills (fills_upTo lanes) (Nat.zero_le _),nil_append,line,←rotated_sources]
  simp only [flatMap_map]

-- The candidates as the queries hand them over: at most one at a place, of a
-- known source and lane, with the positions of a lane counted from one.
structure Offered (candidates : List Candidate) (sourceIds : List String) : Prop where
  once : candidates.Nodup
  apart : ∀ c ∈ candidates, ∀ d ∈ candidates, c.sourceId = d.sourceId → c.lane = d.lane → c.position = d.position → c = d
  known : ∀ c ∈ candidates, c.sourceId ∈ sourceIds ∧ (c.lane.1 = .relationship ∨ c.lane.2 = .normal)
  counted : ∀ c ∈ candidates, 1 ≤ c.position ∧
    ∀ position, 1 ≤ position → position ≤ c.position → ∃ d ∈ candidates, d.sourceId = c.sourceId ∧ d.lane = c.lane ∧ d.position = position

theorem mem_queues : lane ∈ queues turn ↔ lane.1 = .relationship ∨ lane.2 = .normal := by
  obtain ⟨queue,command⟩ := lane
  unfold queues
  split <;> cases queue <;> cases command <;> decide

theorem queues_nodup : (queues turn).Nodup ∧ (queues turn).length = 8 := by
  unfold queues
  split <;> decide

variable (offered : Offered candidates sourceIds)
include offered

theorem grouped_iff : grouped candidates position sourceId lane = some c ↔ c ∈ candidates ∧ c.sourceId = sourceId ∧ c.lane = lane ∧ c.position = position := by
  constructor
  · intro found
    have here := find?_some found
    exact ⟨mem_reverse.mp (mem_of_find?_eq_some found),by simpa using here⟩
  rintro ⟨mem,here⟩
  cases found : grouped candidates position sourceId lane with
  | none =>
    have missed := find?_eq_none.mp found c (mem_reverse.mpr mem)
    exact absurd (decide_eq_true here) missed
  | some d =>
    have there := find?_some found
    obtain ⟨source,lane,place⟩ := of_decide_eq_true there
    rw [offered.apart d (mem_reverse.mp (mem_of_find?_eq_some found)) c mem (source.trans here.1.symm) (lane.trans here.2.1.symm) (place.trans here.2.2.symm)]

theorem mem_line : c ∈ line candidates sourceIds turn maxCommands ↔ c ∈ candidates ∧ c.position ≤ maxCommands := by
  simp only [line,mem_flatMap,mem_filterMap,mem_range',mem_rotate,grouped_iff offered]
  constructor
  · rintro ⟨_,⟨i,low,rfl⟩,_,_,_,_,mem,_,_,place⟩
    exact ⟨mem,by omega⟩
  rintro ⟨mem,low⟩
  have known := offered.known c mem
  have counted := (offered.counted c mem).1
  exact ⟨c.position,⟨c.position-1,by omega,by omega⟩,c.sourceId,known.1,c.lane,mem_queues.mpr known.2,mem,rfl,rfl,rfl⟩

theorem line_nodup (distinct : sourceIds.Nodup) : (line candidates sourceIds turn maxCommands).Nodup := by
  have spread : line candidates sourceIds turn maxCommands = (range' 1 maxCommands ×ˢ (sourceIds.rotate (turn % sourceIds.length) ×ˢ queues turn)).filterMap
        fun place => grouped candidates place.1 place.2.1 place.2.2 := by
    simp [line,SProd.sprod,List.product,filterMap_flatMap,filterMap_map]
  rw [spread]
  refine (Nodup.product (nodup_range' _) ((nodup_rotate.mpr distinct).product queues_nodup.1)).filterMap fun a b c first second => ?_
  obtain ⟨_,source,lane,place⟩ := (grouped_iff offered).mp first
  obtain ⟨_,source',lane',place'⟩ := (grouped_iff offered).mp second
  exact Prod.ext (place.symm.trans place') (Prod.ext (source.symm.trans source') (lane.symm.trans lane'))

theorem line_length (distinct : sourceIds.Nodup) : min maxCommands (line candidates sourceIds turn maxCommands).length = min maxCommands candidates.length := by
  have nodup : (line candidates sourceIds turn maxCommands).Nodup := line_nodup offered distinct
  by_cases short : ∀ c ∈ candidates, c.position ≤ maxCommands
  · rw [((perm_ext_iff_of_nodup nodup offered.once).mpr fun c => (mem_line offered).trans ⟨And.left,fun mem => ⟨mem,short c mem⟩⟩).length_eq]
  -- A lane longer than the limit alone fills the selection.
  obtain ⟨c,mem,long⟩ := not_forall₂.mp short
  have filled : maxCommands ≤ (line candidates sourceIds turn maxCommands).length := by
    have inside : range' 1 maxCommands ⊆ (line candidates sourceIds turn maxCommands).map Candidate.position := by
      intro position within
      obtain ⟨i,low,rfl⟩ := mem_range'.mp within
      obtain ⟨d,there,_,_,place⟩ := (offered.counted c mem).2 (1+1*i) (by omega) (by omega)
      exact mem_map.mpr ⟨d,(mem_line offered).mpr ⟨there,by omega⟩,place⟩
    simpa using (Nodup.subperm (nodup_range' _) inside).length_le
  have within : (line candidates sourceIds turn maxCommands).length ≤ candidates.length :=
    (Nodup.subperm nodup fun d there => ((mem_line offered).mp there).1).length_le
  omega

theorem line_earlier (later : d.position < c.position) (selected : c ∈ (line candidates sourceIds turn maxCommands).take maxCommands)
    (mem : d ∈ candidates) : ∃ front back, (line candidates sourceIds turn maxCommands).take maxCommands = front++back ∧ d ∈ front ∧ c ∈ back := by
  have there := ((mem_line offered).mp (mem_of_mem_take selected)).2
  have cut : range' 1 maxCommands = range' 1 d.position++range' (1+d.position) (maxCommands-d.position) := by
    rw [range'_append_1]
    congr 1
    omega
  obtain ⟨rest,whole⟩ : ∃ rest, line candidates sourceIds turn maxCommands = line candidates sourceIds turn d.position++rest := by
    rw [line,cut,flatMap_append]
    exact ⟨_,rfl⟩
  rw [whole] at selected ⊢
  obtain ⟨back,same,late⟩ := take_later selected fun early => absurd ((mem_line offered).mp early).2 (by omega)
  exact ⟨_,back,same,(mem_line offered).mpr ⟨mem,Nat.le_refl _⟩,late⟩

-- The head of a lane is reached while the lanes of the first source are served.
theorem head_served (mem : c ∈ candidates) (head : c.position = 1) (first : sourceIds[turn % sourceIds.length]? = some c.sourceId)
    (room : 8 ≤ maxCommands) : c ∈ (line candidates sourceIds turn maxCommands).take maxCommands := by
  obtain ⟨inside,here⟩ := List.getElem?_eq_some_iff.mp first
  obtain ⟨more,rfl⟩ : ∃ more, maxCommands = more+1 := ⟨maxCommands-1,by omega⟩
  rw [line,range'_succ,flatMap_cons,rotate_eq_drop_append_take inside.le,drop_eq_getElem_cons inside,cons_append,flatMap_cons,here, append_assoc,take_append]
  refine mem_append_left _ ?_
  have few := length_filterMap_le (grouped candidates 1 c.sourceId) (queues turn)
  rw [queues_nodup.2] at few
  rw [take_of_length_le (few.trans room)]
  exact mem_filterMap.mpr ⟨c.lane,mem_queues.mpr (offered.known c mem).2,(grouped_iff offered).mpr ⟨mem,rfl,rfl,head⟩⟩

end

end LedgeTopOps.OutboxRotation
