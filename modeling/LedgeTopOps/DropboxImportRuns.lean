import LedgeTopOps.DropboxImports

namespace LedgeTopOps.DropboxImports
open FileTransfers StepRuns KeyedRows

variable {b : Bucket} {source : Source}

def Unpublished (b : Bucket) (itemId : Nat) : Prop := ∀ publication ∈ b.published, publication.item ≠ itemId
def Landed (b : Bucket) (itemId size : Nat) : Prop := ∃ publication ∈ b.published, publication.item = itemId ∧ publication.size = size

structure Shelf (mode : ConflictMode) (t : Tables Source) (b : Bucket) : Prop where
  early : t.job.status = .queued → b.published = [] ∧ ∀ itemId, b.staging itemId = none
  waiting : ∀ item ∈ t.items, item.status.waiting = true → Unpublished b item.id ∧ b.staging item.id = none
  completed : ∀ item ∈ t.items, item.status = .completed →
    b.staging item.id = none ∧ (mode ≠ .skip → Landed b item.id item.source.size)
  once : ∀ itemId, b.published.countP (·.item = itemId) ≤ 1
  owned : ∀ itemId, b.staging itemId ≠ none → ∃ item ∈ t.items, item.id = itemId
  skipped : ∀ item ∈ t.items, item.status ≠ .skipped
  replaced : ∀ publication ∈ b.published, mode = .replace ∨ logicallyAbsent publication.replaced = true
  tags : ∀ key object itemId, b.objects key = some object → object.item = some itemId → ¬Unpublished b itemId

abbrev resolve (mode : ConflictMode) (b : Bucket) (itemId : Nat) (source : Source) : Resolution :=
  resolveDestinationKeyForItem b.objects source.destinationKey mode itemId

def Current (mode : ConflictMode) (b : Bucket) (itemId : Nat) (source : Source) : Prop :=
  (Unpublished b itemId ∧ (b.staging itemId ≠ none → resolve mode b itemId source ≠ .skip)) ∨
  (Landed b itemId source.size ∧ ∃ destination object, resolve mode b itemId source = .at destination ∧ destination.published = some object)

def Over (mode : ConflictMode) (t : Tables Source) (b : Bucket) (itemId : Nat) (source : Source) : Prop :=
  ∀ item ∈ t.items, item.id = itemId → item.status = .completed → Unpublished b itemId → resolve mode b itemId source = .skip

structure Stage (mode : ConflictMode) (t : Tables Source) (b : Bucket) (itemId : Nat) (source : Source) : Prop where
  shelf : Shelf mode t b
  current : Current mode b itemId source
  skips : Over mode t b itemId source
  empty : source.size = 0 → b.staging itemId = none

structure Fresh (mode : ConflictMode) (t : Tables Source) (b : Bucket) (itemId : Nat) (source : Source) (destination : Destination) : Prop where
  unpublished : Unpublished b itemId
  chosen : resolve mode b itemId source = .at destination
  unnamed : destination.published = none
  open' : ∀ item ∈ t.items, item.id = itemId → item.status ≠ .completed

def Fitting (mode : ConflictMode) (t : Tables Source) (b : Bucket) (itemId : Nat) (source : Source) : Place → Prop
  | .resolve => True
  | .findStaged | .dropStaged | .checkStaged | .remove | .verify => Landed b itemId source.size
  | .putEmpty destination => Fresh mode t b itemId source destination ∧ source.size = 0
  | .create destination | .cancelled destination _ | .download destination _ | .upload destination _ | .checkpointItem destination _
  | .checkpointJob destination _ | .complete destination => Fresh mode t b itemId source destination ∧ source.size ≠ 0
  | .fetch destination _ => Fresh mode t b itemId source destination ∧ ∀ staged, b.staging itemId = some staged → staged.size = source.size
  | .publish destination staged => Fresh mode t b itemId source destination ∧ staged.size = source.size
  | .abort error | .cleanup error | .cleaned error => error.again = true → Unpublished b itemId

structure Finished (mode : ConflictMode) (b : Bucket) (itemId : Nat) (source : Source) : Prop where
  cleared : b.staging itemId = none
  landed : mode ≠ .skip → Landed b itemId source.size
  passed : Unpublished b itemId → resolve mode b itemId source = .skip

def Raised (b : Bucket) (itemId : Nat) (error : ImportError) : Prop :=
  error.again = true → Unpublished b itemId ∧ b.staging itemId = none

def Yields (mode : ConflictMode) (t : Tables Source) (b : Bucket) (itemId : Nat) (source : Source) : Progress Place ImportError → Prop
  | .at place => Fitting mode t b itemId source place
  | .finished skipped => skipped = false ∧ Finished mode b itemId source
  | .raised error => Raised b itemId error

section

theorem absent_imported (imported : importedByItem object itemId) : ∃ found, object = some found := by
  cases object with
  | none => cases imported
  | some found => exact ⟨found,rfl⟩

theorem firstFree_cons : firstFree objects itemId (candidate :: rest) =
    if importedByItem (objects candidate) itemId then .at ⟨candidate,(objects candidate).map Object.etag,objects candidate⟩
    else if logicallyAbsent (objects candidate) then .at ⟨candidate,(objects candidate).map Object.etag,none⟩
    else firstFree objects itemId rest := rfl

theorem firstFree_skip : firstFree objects itemId names ≠ .skip := by
  induction names with
  | nil => nofun
  | cons _ _ ih =>
    rw [firstFree_cons]
    split
    · nofun
    split
    · nofun
    exact ih

theorem firstFree_absent (chosen : firstFree objects itemId names = .at destination)
    (unnamed : destination.published = none) : logicallyAbsent (objects destination.key) := by
  induction names with
  | nil => cases chosen
  | cons candidate rest ih =>
    rw [firstFree_cons] at chosen
    split at chosen
    · rename_i imported
      obtain ⟨_,same⟩ := absent_imported imported
      cases chosen
      cases same.symm.trans unnamed
    split at chosen
    · rename_i absent
      cases chosen; exact absent
    exact ih chosen

theorem skip_mode (passed : resolveDestinationKeyForItem objects source.destinationKey mode itemId = .skip) : mode = .skip := by
  unfold resolveDestinationKeyForItem at passed
  dsimp only at passed
  split at passed
  · cases passed
  split at passed
  · rename_i both
    exact of_decide_eq_true (Bool.and_eq_true_iff.mp both).1
  split at passed
  · cases passed
  split at passed
  · cases passed
  exact absurd passed firstFree_skip

theorem resolve_absent (chosen : resolveDestinationKeyForItem objects source.destinationKey mode itemId = .at destination)
    (unnamed : destination.published = none) : mode = .replace ∨ logicallyAbsent (objects destination.key) := by
  unfold resolveDestinationKeyForItem at chosen
  dsimp only at chosen
  split at chosen
  · rename_i imported
    obtain ⟨_,same⟩ := absent_imported imported
    cases chosen
    cases same.symm.trans unnamed
  split at chosen
  · cases chosen
  split at chosen
  · cases chosen
  split at chosen
  · rename_i free
    cases chosen
    simpa using free
  exact .inr (firstFree_absent chosen unnamed)

theorem imported_tag (imported : importedByItem object itemId) : ∃ found, object = some found ∧ found.item = some itemId := by
  cases object with
  | none => cases imported
  | some found => exact ⟨found,rfl,of_decide_eq_true imported⟩

theorem firstFree_published (chosen : firstFree objects itemId names = .at destination)
    (named : destination.published = some object) : ∃ key, objects key = some object ∧ object.item = some itemId := by
  induction names with
  | nil => cases chosen
  | cons candidate rest ih =>
    rw [firstFree_cons] at chosen
    split at chosen
    · rename_i imported
      obtain ⟨_,same,tag⟩ := imported_tag imported
      cases chosen
      cases same.symm.trans named
      exact ⟨candidate,same,tag⟩
    split at chosen
    · cases chosen; cases named
    exact ih chosen

theorem resolve_published (chosen : resolveDestinationKeyForItem objects source.destinationKey mode itemId = .at destination)
    (named : destination.published = some object) : ∃ key, objects key = some object ∧ object.item = some itemId := by
  unfold resolveDestinationKeyForItem at chosen
  dsimp only at chosen
  split at chosen
  · rename_i imported
    obtain ⟨_,same,tag⟩ := imported_tag imported
    cases chosen
    cases same.symm.trans named
    exact ⟨source.destinationKey,same,tag⟩
  split at chosen
  · cases chosen
  split at chosen
  · cases chosen
  split at chosen
  · cases chosen; cases named
  exact firstFree_published chosen named

def tagged (objects : String → Option Object) (key : String) (object : Object) : String → Option Object :=
  fun other => if other = key then some object else objects other

theorem firstFree_put (tag : object.item = some itemId) (chosen : firstFree objects itemId names = .at destination) (unnamed : destination.published = none) :
    ∃ found published, firstFree (tagged objects destination.key object) itemId names = .at found ∧ found.published = some published := by
  induction names with
  | nil => cases chosen
  | cons candidate rest ih =>
    have free := firstFree_absent chosen unnamed
    rw [firstFree_cons] at chosen ⊢
    by_cases here : candidate = destination.key
    · subst here
      have own : tagged objects destination.key object destination.key = some object := if_pos rfl
      rw [own,if_pos (by simp [importedByItem,tag])]
      exact ⟨_,object,rfl,rfl⟩
    have other : tagged objects destination.key object candidate = objects candidate := if_neg here
    rw [other]
    split at chosen
    · rename_i imported
      cases chosen
      exact absurd rfl here
    rename_i foreign
    split at chosen
    · cases chosen
      exact absurd rfl here
    rename_i live
    rw [if_neg foreign,if_neg live]
    exact ih chosen

theorem resolve_put (tag : object.item = some itemId) (chosen : resolveDestinationKeyForItem objects source.destinationKey mode itemId = .at destination)
    (unnamed : destination.published = none) : ∃ found published,
      resolveDestinationKeyForItem (tagged objects destination.key object) source.destinationKey mode itemId = .at found ∧
        found.published = some published := by
  unfold resolveDestinationKeyForItem at chosen ⊢
  dsimp only at chosen ⊢
  by_cases here : source.destinationKey = destination.key
  · have own : tagged objects destination.key object source.destinationKey = some object := if_pos here
    rw [own,if_pos (by simp [importedByItem,tag])]
    exact ⟨_,object,rfl,rfl⟩
  have other : tagged objects destination.key object source.destinationKey = objects source.destinationKey := if_neg here
  rw [other]
  split at chosen
  · cases chosen
    exact absurd rfl here
  rename_i foreign
  split at chosen
  · cases chosen
  rename_i first
  split at chosen
  · cases chosen
  rename_i second
  split at chosen
  · cases chosen
    exact absurd rfl here
  rename_i third
  rw [if_neg foreign,if_neg first,if_neg second,if_neg third]
  exact firstFree_put tag chosen unnamed
end

@[simp] theorem stage_own : (b.stage itemId staged).staging itemId = staged := if_pos rfl
theorem stage_other (apart : other ≠ itemId) : (b.stage itemId staged).staging other = b.staging other := if_neg apart

theorem put_landed (b : Bucket) (destination : Destination) (itemId size : Nat) : Landed (b.put destination itemId size) itemId size :=
  ⟨_,.head _,rfl,rfl⟩

theorem put_unpublished (unpublished : Unpublished b other) (apart : other ≠ itemId) : Unpublished (b.put destination itemId size) other := by
  intro publication mem
  rcases List.mem_cons.mp mem with rfl | old
  · exact fun same => apart same.symm
  exact unpublished publication old

theorem Landed.put (landed : Landed b other amount) : Landed (b.put destination itemId size) other amount :=
  landed.imp fun _ found => ⟨.tail _ found.1,found.2⟩

theorem unpublished_count (unpublished : Unpublished b itemId) : b.published.countP (·.item = itemId) = 0 :=
  List.countP_eq_zero.mpr fun publication mem => by simpa using unpublished publication mem

theorem Landed.published (landed : Landed b itemId size) : ¬Unpublished b itemId := by
  obtain ⟨publication,mem,same,_⟩ := landed
  exact fun unpublished => unpublished publication mem same

theorem Shelf.stage (shelf : Shelf mode t b) (counting : t.job.status.counting)
    (row : ∃ item ∈ t.items, item.id = itemId) (idle : ∀ item ∈ t.items, item.id = itemId → item.status.waiting = false)
    (open' : staged ≠ none → ∀ item ∈ t.items, item.id = itemId → item.status ≠ .completed) : Shelf mode t (b.stage itemId staged) where
  early queued := by rw [queued] at counting; cases counting
  waiting item mem waits := by
    have before := shelf.waiting item mem waits
    refine ⟨before.1,?_⟩
    have apart : item.id ≠ itemId := fun same => by rw [idle item mem same] at waits; cases waits
    rw [stage_other apart]; exact before.2
  completed item mem done := by
    have before := shelf.completed item mem done
    refine ⟨?_,before.2⟩
    by_cases same : item.id = itemId
    · rw [same,stage_own]
      by_cases cleared : staged = none
      · exact cleared
      exact absurd done (open' cleared item mem same)
    rw [stage_other same]; exact before.1
  once := shelf.once
  owned other present := by
    by_cases same : other = itemId
    · exact same ▸ row
    rw [stage_other same] at present
    exact shelf.owned other present
  skipped := shelf.skipped
  replaced := shelf.replaced
  tags := shelf.tags

theorem Shelf.put (shelf : Shelf mode t b) (counting : t.job.status.counting)
    (idle : ∀ item ∈ t.items, item.id = itemId → item.status.waiting = false)
    (fresh : Fresh mode t b itemId source destination) : Shelf mode t (b.put destination itemId size) where
  early queued := by rw [queued] at counting; cases counting
  waiting item mem waits := by
    have before := shelf.waiting item mem waits
    have apart : item.id ≠ itemId := fun same => by rw [idle item mem same] at waits; cases waits
    exact ⟨put_unpublished before.1 apart,before.2⟩
  completed item mem done := by
    have before := shelf.completed item mem done
    exact ⟨before.1,fun loud => (before.2 loud).put⟩
  once other := by
    have before := shelf.once other
    show (_ :: b.published).countP _ ≤ 1
    rw [List.countP_cons]
    by_cases same : itemId = other
    · subst same
      rw [unpublished_count fresh.unpublished]
      split <;> omega
    simpa [same] using before
  owned := shelf.owned
  skipped := shelf.skipped
  replaced publication mem := by
    rcases List.mem_cons.mp mem with rfl | old
    · exact resolve_absent fresh.chosen fresh.unnamed
    exact shelf.replaced publication old
  tags key object other found named := by
    by_cases here : key = destination.key
    · have own : (b.put destination itemId size).objects key = some { etag := b.etags, size := size, item := some itemId } := if_pos here
      cases own.symm.trans found
      cases named
      exact (put_landed b destination itemId size).published
    have before : (b.put destination itemId size).objects key = b.objects key := if_neg here
    have known := shelf.tags key object other (before.symm.trans found) named
    exact fun unpublished => known fun publication mem => unpublished publication (.tail _ mem)

structure Working (mode : ConflictMode) (t : Tables Source) (b : Bucket) (itemId : Nat) (source : Source) : Prop where
  stage : Stage mode t b itemId source
  counting : t.job.status.counting = true
  row : ∃ item ∈ t.items, item.id = itemId
  idle : ∀ item ∈ t.items, item.id = itemId → item.status.waiting = false

section
variable (working : Working mode t b itemId source)
include working

theorem Working.drop : Working mode t (b.stage itemId none) itemId source where
  stage := ⟨working.stage.shelf.stage working.counting working.row working.idle fun present => absurd rfl present,
    working.stage.current.imp (fun before => ⟨before.1,fun present => absurd stage_own present⟩) id,working.stage.skips,fun _ => stage_own⟩
  counting := working.counting
  row := working.row
  idle := working.idle

theorem Working.stow (fresh : Fresh mode t b itemId source destination)
    (filled : source.size ≠ 0) :
    Working mode t (b.stage itemId (some staged)) itemId source where
  stage := ⟨working.stage.shelf.stage working.counting working.row working.idle fun _ => fresh.open',
    .inl ⟨fresh.unpublished,fun _ passed => nomatch fresh.chosen.symm.trans passed⟩,working.stage.skips,fun empty => absurd empty filled⟩
  counting := working.counting
  row := working.row
  idle := working.idle

theorem Working.put (fresh : Fresh mode t b itemId source destination) :
    Working mode t (b.put destination itemId source.size) itemId source where
  stage := ⟨working.stage.shelf.put working.counting working.idle fresh,
    .inr ⟨put_landed b destination itemId source.size,resolve_put rfl fresh.chosen fresh.unnamed⟩,
    fun item mem same done => absurd done (fresh.open' item mem same),working.stage.empty⟩
  counting := working.counting
  row := working.row
  idle := working.idle
end

theorem simple_cases (ran : simple b effect going throws answer = some (after,reached)) :
    (after = effect b ∧ (reached = going ∨ ∃ message, reached = throws message)) ∨ (after = b ∧ ∃ message, reached = throws message) := by
  cases answer with
  | ok => cases ran; exact .inl ⟨rfl,.inl rfl⟩
  | failed committed message =>
    cases committed with
    | true => cases ran; exact .inl ⟨rfl,.inr ⟨message,rfl⟩⟩
    | false => cases ran; exact .inr ⟨rfl,message,rfl⟩
  | received | refused => cases ran

theorem raise_yields : Yields mode t b itemId source (raise message) := nofun
theorem caught_yields : Yields mode t b itemId source (caught message) := nofun

theorem simple_idle (ran : simple b id going throws answer = some (after,reached)) (working : Working mode t b itemId source)
    (goes : Yields mode t b itemId source going) (escapes : ∀ message, Yields mode t b itemId source (throws message)) :
    Working mode t after itemId source ∧ Yields mode t after itemId source reached := by
  rcases simple_cases ran with ⟨rfl,rfl | ⟨message,rfl⟩⟩ | ⟨rfl,message,rfl⟩
  · exact ⟨working,goes⟩
  · exact ⟨working,escapes message⟩
  exact ⟨working,escapes message⟩

theorem simple_effect (ran : simple b effect going throws answer = some (after,reached)) (working : Working mode t b itemId source)
    (effected : Working mode t (effect b) itemId source) (goes : Yields mode t (effect b) itemId source going)
    (before : ∀ message, Yields mode t b itemId source (throws message)) (later : ∀ message, Yields mode t (effect b) itemId source (throws message)) :
    Working mode t after itemId source ∧ Yields mode t after itemId source reached := by
  rcases simple_cases ran with ⟨rfl,rfl | ⟨message,rfl⟩⟩ | ⟨rfl,message,rfl⟩
  · exact ⟨effected,goes⟩
  · exact ⟨effected,later message⟩
  exact ⟨working,before message⟩

theorem Landed.finished (landed : Landed b itemId size) (cleared : b.staging itemId = none) (same : size = source.size) : Finished mode b itemId source :=
  ⟨cleared,fun _ => same ▸ landed,fun unpublished => absurd unpublished landed.published⟩

theorem not_some (absent : object.isSome ≠ true) : object = none := by
  cases object with
  | none => rfl
  | some => exact absurd rfl absent

theorem afresh_yields (fresh : Fresh mode t b itemId source destination) : Yields mode t b itemId source (afresh destination source.size) := by
  unfold afresh
  split
  · exact raise_yields
  split
  · rename_i empty
    exact ⟨fresh,empty⟩
  rename_i filled
  split
  · exact ⟨fresh,filled⟩
  exact raise_yields

theorem part_yields (fresh : Fresh mode t b itemId source destination ∧ source.size ≠ 0) :
    Yields mode t b itemId source (part destination offset source.size) := by
  unfold part
  split <;> exact fresh

theorem resolved_yields (working : Working mode t b itemId source) : Yields mode t b itemId source (resolved (resolve mode b itemId source) source.size) := by
  unfold resolved
  split
  · rename_i passed
    rcases working.stage.current with ⟨unpublished,staged⟩ | ⟨_,destination,_,found,_⟩
    · refine ⟨rfl,?_,fun loud => ?_,fun _ => passed⟩
      · by_contra present
        exact staged present passed
      · exact absurd (skip_mode passed) loud
    exact nomatch passed.symm.trans found
  · exact raise_yields
  rename_i destination chosen
  split
  · rename_i object named
    rcases working.stage.current with ⟨unpublished,_⟩ | ⟨landed,_⟩
    · obtain ⟨key,there,tag⟩ := resolve_published chosen named
      exact absurd unpublished (working.stage.shelf.tags key object itemId there tag)
    exact landed
  rename_i unnamed
  rcases working.stage.current with ⟨unpublished,_⟩ | ⟨_,other,object,found,named⟩
  · refine afresh_yields ⟨unpublished,chosen,unnamed,fun item mem same done => ?_⟩
    exact nomatch chosen.symm.trans (working.stage.skips item mem same done unpublished)
  cases chosen.symm.trans found
  cases unnamed.symm.trans named

theorem publishCall_sound (ran : publishCall b destination itemId source.size going changed throws answer = some (after,reached))
    (working : Working mode t b itemId source) (fresh : Fresh mode t b itemId source destination)
    (goes : Yields mode t (b.put destination itemId source.size) itemId source going) (refuses : Yields mode t b itemId source changed)
    (escapes : ∀ b message, Yields mode t b itemId source (throws message)) :
    Working mode t after itemId source ∧ Yields mode t after itemId source reached := by
  unfold publishCall at ran
  split at ran
  · exact simple_effect ran working (working.put fresh) goes (escapes _) (escapes _)
  exact simple_idle ran working refuses (escapes _)

theorem importOneFile_sound (working : Working mode t b item.id item.source) (fitting : Fitting mode t b item.id item.source place)
    (ran : importOneFile mode cancelled b item place answer = some (after,reached)) :
    Working mode t after item.id item.source ∧ Yields mode t after item.id item.source reached := by
  have escapes (message : String) : Yields mode t b item.id item.source (raise message) := raise_yields
  have caughts (message : String) : Yields mode t b item.id item.source (caught message) := caught_yields
  cases place with
  | resolve => exact simple_idle ran working (resolved_yields working) escapes
  | findStaged =>
    refine simple_idle ran working ?_ escapes
    split
    · exact fitting
    rename_i cleared
    exact ⟨rfl,fitting.finished (not_some cleared) rfl⟩
  | dropStaged =>
    have dropping : simple b (fun b => b.stage item.id none) (.at .checkStaged) raise answer = some (after,reached) := ran
    exact simple_effect dropping working working.drop fitting escapes (fun _ => raise_yields)
  | checkStaged =>
    refine simple_idle ran working ?_ escapes
    split
    · exact nofun
    rename_i cleared
    exact ⟨rfl,fitting.finished (not_some cleared) rfl⟩
  | putEmpty destination =>
    obtain ⟨fresh,empty⟩ := fitting
    have sized : publishCall b destination item.id item.source.size (.finished false) (.raised destinationChanged) raise answer =
        some (after,reached) := by rw [empty]; exact ran
    refine publishCall_sound sized working fresh ⟨rfl,?_⟩ nofun (fun _ _ => raise_yields)
    exact (put_landed b destination item.id item.source.size).finished (working.stage.empty empty) rfl
  | create => exact simple_idle ran working (part_yields fitting) escapes
  | cancelled =>
    refine simple_idle ran working ?_ caughts
    split
    · exact nofun
    exact fitting
  | download =>
    cases answer with
    | ok => cases ran
    | failed => cases ran; exact ⟨working,caught_yields⟩
    | received =>
      cases ran
      refine ⟨working,?_⟩
      split
      · exact fitting
      exact nofun
    | refused => cases ran; exact ⟨working,fun _ => fitting.1.unpublished⟩
  | checkpointJob => exact simple_idle ran working (part_yields fitting) caughts
  | complete destination =>
    obtain ⟨fresh,filled⟩ := fitting
    have staging : simple b (fun b => b.stage item.id (some { etag := b.etags, size := item.source.size, item := some item.id }))
      (.at (.fetch destination b.etags)) caught answer = some (after,reached) := ran
    refine simple_effect staging working (working.stow fresh filled) ⟨⟨fresh.unpublished,fresh.chosen,fresh.unnamed,fresh.open'⟩,fun staged found => ?_⟩
      caughts (fun _ => caught_yields)
    rw [stage_own] at found
    cases found; rfl
  | fetch destination etag =>
    refine simple_idle ran working ?_ caughts
    split
    · rename_i object found
      split
      · exact ⟨fitting.1,fitting.2 object found⟩
      exact nofun
    exact nofun
  | publish destination =>
    have sized : publishCall b destination item.id item.source.size (.at .remove) (throwInside destinationChanged) caught answer =
        some (after,reached) := by rw [←fitting.2]; exact ran
    exact publishCall_sound sized working fitting.1 (put_landed b destination item.id item.source.size) nofun (fun _ _ => caught_yields)
  | remove =>
    have dropping : simple b (fun b => b.stage item.id none) (.at .verify) caught answer = some (after,reached) := ran
    exact simple_effect dropping working working.drop fitting caughts (fun _ => caught_yields)
  | verify =>
    refine simple_idle ran working ?_ caughts
    split
    · exact nofun
    rename_i cleared
    exact ⟨rfl,fitting.finished (not_some cleared) rfl⟩
  | abort => exact simple_idle ran working fitting (fun _ => fitting)
  | cleanup error =>
    have dropping : simple b (fun b => b.stage item.id none) (.at (.cleaned error)) raise answer = some (after,reached) := ran
    exact simple_effect dropping working working.drop fitting escapes (fun _ => raise_yields)
  | cleaned error =>
    refine simple_idle ran working ?_ escapes
    split
    · exact nofun
    rename_i cleared
    exact fun again => ⟨fitting again,not_some cleared⟩
  | _ => exact simple_idle ran working fitting caughts
end LedgeTopOps.DropboxImports
