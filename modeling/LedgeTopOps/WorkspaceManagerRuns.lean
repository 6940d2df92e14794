import LedgeTopOps.WorkspaceManagerHistory

namespace LedgeTopOps.PeerAdministrators
open List PortalAuthority

section
variable {Principal : Type}

inductive Move (Principal : Type) where
  | suspend (principal : Principal) (workspaceId identityId : String)
  | change (principal : Principal) (workspaceId identityId : String) (input : Input) (key : String)

def Move.place : Move Principal → String
  | .suspend _ workspaceId _ => workspaceId
  | .change _ workspaceId _ _ _ => workspaceId

def Reads.Within (seen : Reads Principal) (history : List (Tables Principal)) : Prop :=
  seen.replay ∈ history ∧ seen.target ∈ history ∧ seen.manager ∈ history ∧ seen.eligible ∈ history ∧ seen.view ∈ history ∧
    seen.manage ∈ history ∧ seen.authority ∈ history ∧ seen.candidates ∈ history ∧ ∀ candidate, seen.candidate candidate ∈ history

-- The batch of a request. What is refused, or fails, leaves the tables.
inductive Step (env : Flags) (history : List (Tables Principal)) (t : Tables Principal) : Move Principal → Tables Principal → Prop
  | suspended {principal : Principal} {workspaceId identityId : String} (seen : SuspensionReads Principal) (manage : seen.manage ∈ history)
      (target : seen.target ∈ history) (allowed : suspendWorkspaceMember env seen principal workspaceId identityId = true) :
      Step env history t (.suspend principal workspaceId identityId) (suspendBatch t workspaceId identityId)
  | changed {principal : Principal} {workspaceId identityId : String} {input : Input} {key : String} (seen : Reads Principal) (plan : Plan)
      (entitlementId : String) (next : Tables Principal) (reads : seen.Within history)
      (planned : changeWorkspacePeerAdministrator env seen principal workspaceId identityId input key = .ok plan)
      (applied : changeBatch env t plan workspaceId identityId input key entitlementId = some next) :
      Step env history t (.change principal workspaceId identityId input key) next
  | left (move : Move Principal) : Step env history t move t

-- The states of a run, the last one first. Its moves heed a condition.
inductive Run (env : Flags) (heeds : Move Principal → Tables Principal → Prop) (first : Tables Principal) : List (Tables Principal) → Prop
  | start : Run env heeds first [first]
  | step {history : List (Tables Principal)} {t next : Tables Principal} {move : Move Principal} (run : Run env heeds first (t :: history))
      (heeded : heeds move t) (step : Step env (t :: history) t move next) : Run env heeds first (next :: t :: history)

-- What a write must find where its guard lets it: for a suspension someone else who stands, for one's own demotion
-- that or a grant it leaves.
def Heeds (env : Flags) (workspaceId : String) : Move Principal → Tables Principal → Prop
  | .suspend _ place target, t => place = workspaceId → suspends t workspaceId target = true → AnotherStands env.toEnv t workspaceId target
  | .change _ place target input _, t => place = workspaceId → input.manager = false →
      ∀ plan, plan.actorId = target → changeGuard env t plan workspaceId target input = true →
        AnotherStands env.toEnv t workspaceId target ∨ KeepsGrant t workspaceId target

variable {env : Flags} {first t next : Tables Principal} {history : List (Tables Principal)} {workspaceId place target : String}

theorem step_kin (step : Step env history t move next) : Kin t next := by
  cases step with
  | suspended => exact suspendBatch_kin
  | changed _ _ _ _ _ _ applied => exact (changeBatch_some applied).2.1
  | left => exact Kin.refl t

theorem run_kin (run : Run env heeds first history) : ∀ t ∈ history, Kin first t := by
  induction run with
  | start =>
    intro t mem
    rw [mem_singleton.mp mem]
    exact Kin.refl first
  | step _ _ step ih =>
    intro other mem
    rcases mem_cons.mp mem with rfl | old
    · exact (ih _ mem_cons_self).trans (step_kin step)
    exact ih other old

theorem unless_ok {ε α : Type} [Decidable condition] {fault : ε} {rest : Except ε α} {value : α} :
    (if condition then .error fault else rest) = Except.ok value ↔ ¬condition ∧ rest = .ok value := by
  by_cases held : condition
  · rw [if_pos held]
    exact ⟨nofun,fun holds => absurd held holds.1⟩
  rw [if_neg held]
  exact (and_iff_right held).symm

theorem planned_actor (planned : changeWorkspacePeerAdministrator env seen principal workspaceId target input key = .ok plan) :
    seen.replay.known principal = some plan.actorId ∧
      authorizePortalWorkspaceCapability env.toEnv seen.view.toDb principal workspaceId .workspaceView (.workspace workspaceId) none := by
  unfold changeWorkspacePeerAdministrator at planned
  simp only [bind,Except.bind,throw,throwThe,MonadExceptOf.throw,pure,Except.pure,unless_ok] at planned
  obtain ⟨-,-,rest⟩ := planned
  split at rest
  · rename_i actorId known
    split at rest
    · cases rest
    split at rest
    · simp only [unless_ok] at rest
      obtain ⟨-,-,-,-,-,allowed,-,same⟩ := rest
      cases same
      simp only [Bool.or_eq_true,Bool.not_eq_true',not_or,Bool.not_eq_false] at allowed
      exact ⟨known,allowed.1.1⟩
    cases rest
  cases rest

theorem actor_eligible (run : Run env heeds first (t :: history)) (reads : seen.Within (t :: history))
    (planned : changeWorkspacePeerAdministrator env seen principal workspaceId target input key = .ok plan) :
    Site env.toEnv t.toDb workspaceId ∧ Eligible env.toEnv t workspaceId plan.actorId := by
  obtain ⟨known,allowed⟩ := planned_actor planned
  obtain ⟨site,identityId,resolved,legacy,-⟩ := authorize_workspace_iff.mp allowed
  have kin : Kin seen.view t := (run_kin run _ reads.2.2.2.2.1).symm.trans (run_kin run _ mem_cons_self)
  have same : identityId = plan.actorId := by
    have found : seen.view.resolved principal = some identityId := (Option.filter_eq_some_iff.mp resolved).1
    have one := seen.view.resolved_known principal identityId found
    have link : Kin seen.replay seen.view := (run_kin run _ reads.1).symm.trans (run_kin run _ reads.2.2.2.2.1)
    obtain ⟨_,_,_,_,equal⟩ := link
    have knows : seen.view.known principal = seen.replay.known principal := by rw [equal]
    rw [knows,known] at one
    exact (Option.some.inj one).symm
  rw [same] at resolved legacy
  exact ⟨site_kin kin site,eligible_kin kin ⟨⟨principal,resolved⟩,legacy⟩⟩

theorem apart_standing (step : Step env (t :: history) t move next) (managed : Managed env.toEnv t.toDb workspaceId)
    (elsewhere : move.place ≠ workspaceId) : Managed env.toEnv next.toDb workspaceId := by
  obtain ⟨identityId,manager⟩ := managed
  obtain ⟨site,standing⟩ := manager_iff.mp manager
  refine ⟨identityId,manager_iff.mpr ⟨site_kin (step_kin step) site,?_⟩⟩
  cases step with
  | suspended => exact (suspended_standing fun same => elsewhere same.1.symm).mpr standing
  | changed _ _ _ _ _ _ applied => exact (changed_standing applied fun same => elsewhere same.1.symm).mpr standing
  | left => exact standing

theorem step_managed (run : Run env heeds first (t :: history)) (step : Step env (t :: history) t move next)
    (managed : Managed env.toEnv t.toDb workspaceId) (heeded : Heeds env workspaceId move t) : Managed env.toEnv next.toDb workspaceId := by
  by_cases here : move.place = workspaceId
  · cases step with
    | left => exact managed
    | @suspended _ place target seen manage row allowed =>
      obtain rfl : place = workspaceId := here
      by_cases goes : suspends t place target
      · exact (suspended_iff managed goes).mpr (heeded rfl goes)
      unfold suspendBatch
      rw [if_neg goes]
      exact managed
    | @changed _ place target input key seen plan entitlementId next reads planned applied =>
      obtain rfl : place = workspaceId := here
      obtain ⟨site,eligible⟩ := actor_eligible run reads planned
      have guarded := (changeBatch_some applied).1
      have standing := standing_unlimited eligible (guard_authority guarded)
      by_cases other : plan.actorId = target
      · -- Nobody promotes oneself, so this is the demotion of a manager by itself.
        have demotes : input.manager = false := by
          rw [Bool.eq_false_iff]
          exact fun promotes => promoted_other guarded promotes other
        rw [other] at standing
        exact (demoted_iff (manager_iff.mpr ⟨site,standing⟩) demotes applied).mpr (heeded rfl demotes plan other guarded)
      have still := (changed_standing applied fun same => other same.2).mpr standing
      exact ⟨plan.actorId,manager_iff.mpr ⟨site_kin (changeBatch_some applied).2.1 site,still⟩⟩
  exact apart_standing step managed here

end

def personOf (second : Bool) : String := if second then "b" else "a"

def sampleGrant (second : Bool) (capability : Capability) : Entitlement where
  id := personOf second
  workspaceId := "w"
  identityId := personOf second
  capability := capability
  effect := .allow
  scope := .workspace "w"
  source := .operations
  sourceVersion := none
  validity := ⟨.active,false,some 0,none⟩
  accessTermsId := none

def sampleTables (denials : List Denial) : Tables Bool where
  now := 100
  termsReady := true
  claimed _ := false
  resolved second := some (personOf second)
  rootAccessAllowed _ := true
  primaryWorkspaceAccount _ := true
  primaryLegacyWorkspaceMembership _ _ := true
  termRetention _ _ _ := []
  ownsSource _ _ := true
  currentlyActive _ _ _ := true
  workspaces id := if id = "w" then some ⟨"w",.organization,"org","Org",none,primaryAlphaSourceId,true⟩ else none
  memberships := [false,true].map fun second => ⟨"w",personOf second,.operations,none,.active,false,none⟩
  checkpoints id := if id = "w" then some ⟨"g",1⟩ else none
  generations _ _ := some ⟨1,true⟩
  directories _ _ := ⟨[⟨.organization,"org",none,"Org",("1" : String),true⟩],nodup_singleton _,[],fun _ => none,some 3⟩
  bindings := []
  entitlements := [false,true].flatMap fun second => [.workspaceView,.memberManage].map (sampleGrant second)
  denials := denials
  terms _ := none
  deadlines _ := none
  principalsReady := true
  known second := some (personOf second)
  resolved_known _ _ same := same
  identityActive _ := true
  known_active _ _ _ := rfl
  currentPrincipal _ _ _ := true
  secondaryManager _ _ := false
  entitlementVersion _ := 1
  commands := []

def everyFlag : Flags := ⟨⟨true,true,true⟩,true⟩
def secondDenied : Tables Bool := sampleTables [⟨"b",.global,⟨.active,false,some 0,none⟩⟩]

def manages (t : Tables Bool) (second : Bool) : Bool :=
  authorizePortalWorkspaceCapability everyFlag.toEnv t.toDb second "w" .workspaceView (.workspace "w") none &&
    authorizePortalWorkspaceCapability everyFlag.toEnv t.toDb second "w" .memberManage (.workspace "w") none

theorem suspension (t : Tables Bool) (heeded : heeds (.suspend false "w" "a") t)
    (allowed : suspendWorkspaceMember everyFlag ⟨t,t⟩ false "w" "a") : Run everyFlag heeds t [suspendBatch t "w" "a",t] :=
  .step .start heeded (.suspended ⟨t,t⟩ (mem_singleton_self t) (mem_singleton_self t) allowed)

def Move.target : Move Principal → String
  | .suspend _ _ identityId => identityId
  | .change _ _ identityId _ _ => identityId

end LedgeTopOps.PeerAdministrators
