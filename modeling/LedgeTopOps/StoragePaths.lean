import LedgeTopOps.IncomingZip

namespace LedgeTopOps.StoragePaths
open List JsonText
open IncomingZip (split join separator split_free)

def dot : UInt16 := 0x2E
def here : Text := [dot]
def up : Text := [dot,dot]

-- One segment of a path against the segments kept so far, the last kept first.
def climb (allowAboveRoot : Bool) (kept : List Text) (part : Text) : List Text :=
  if part = [] ∨ part = here then kept
  else if part = up then
    match kept with
    | last :: rest => if last ≠ up then rest else if allowAboveRoot then part :: kept else kept
    | [] => if allowAboveRoot then [part] else []
  else part :: kept

def normalizeParts (allowAboveRoot : Bool) (parts : List Text) : List Text := (parts.foldl (climb allowAboveRoot) []).reverse

def normalize (path : Text) : Text :=
  if path = [] then here else
  let absolute := path.head? = some separator
  let trailing := path.getLast? = some separator
  let body := join (normalizeParts (!absolute) (split path))
  if body = [] then if absolute then [separator] else if trailing then here++[separator] else here else
  let closed := if trailing then body++[separator] else body
  if absolute then separator :: closed else closed

def stripped (value : Text) : Text := value.dropWhile (· = separator)

def safeRelativePath (value : Text) : Option Text :=
  if value = [] ∨ 0 ∈ value ∨ 0x5C ∈ value then none else
  let normalized := normalize (stripped value)
  if normalized = [] ∨ normalized = here ∨ normalized = up ∨ up++[separator] <+: normalized ∨ normalized.head? = some separator then none
  else some normalized

-- Where a path lands below the segments of a resolved root, unless it escapes.
def resolve (root : List Text) (relativePath : Text) : Option (List Text) := do
  let candidate := normalizeParts false (root++split (← safeRelativePath relativePath))
  if root <+: candidate then some candidate else none

def Name (part : Text) : Prop := part ≠ [] ∧ part ≠ here ∧ part ≠ up

-- Read from the left, every step up cancels a name before it and no name is left.
def Cancels : Nat → List Text → Prop
  | names,[] => names = 0
  | names,part :: rest =>
    if part = [] ∨ part = here then Cancels names rest
    else if part = up then 0 < names ∧ Cancels (names-1) rest else Cancels (names+1) rest

-- A path that ends in a slash and whose names all cancel.
def Hollow (value : Text) : Prop :=
  0 ∉ value ∧ 0x5C ∉ value ∧ (stripped value).getLast? = some separator ∧ Cancels 0 (split (stripped value))

structure Inside (value normalized : Text) : Prop where
  names : ∃ names ≠ [], (∀ part ∈ names, Name part) ∧ (split normalized = names ∨ split normalized = names++[[]])
  stable : safeRelativePath normalized = some normalized
  below : ∀ root, (∀ part ∈ root, Name part) → ∃ names ≠ [], resolve root value = some (root++names)

variable {parts kept rest : List Text}

theorem climb_name (name : Name part) : climb above kept part = part :: kept := by
  rw [climb.eq_def,if_neg (not_or.mpr ⟨name.1,name.2.1⟩),if_neg name.2.2]

theorem names_kept (names : ∀ part ∈ parts, Name part) : parts.foldl (climb above) kept = parts.reverse++kept := by
  induction parts generalizing kept with
  | nil => rfl
  | cons part rest ih =>
    obtain ⟨first,others⟩ := forall_mem_cons.mp names
    rw [foldl_cons,climb_name first,ih others,reverse_cons,append_assoc]
    rfl

-- Once above its start a path stays above it.
theorem climb_sunk : ∃ more, parts.foldl (climb true) (kept++[up]) = more++[up] := by
  induction parts generalizing kept with
  | nil => exact ⟨kept,rfl⟩
  | cons part rest ih =>
    rw [foldl_cons,climb.eq_def]
    split
    · exact ih
    split
    · cases kept with
      | nil => exact @ih [part]
      | cons last kept =>
        simp only [cons_append]
        split
        · exact ih
        · exact @ih (part :: last :: kept)
    · exact @ih (part :: kept)

theorem climb_names (names : ∀ part ∈ kept, Name part) : (parts.foldl (climb true) kept = [] ↔ Cancels kept.length parts) ∧
    ((∃ more, parts.foldl (climb true) kept = more++[up]) ∨ ∀ part ∈ parts.foldl (climb true) kept, Name part ∧ (part ∈ kept ∨ part ∈ parts)) := by
  induction parts generalizing kept with
  | nil => exact ⟨length_eq_zero_iff.symm,.inr fun part mem => ⟨names part mem,.inl mem⟩⟩
  | cons part rest ih =>
    rw [foldl_cons,climb.eq_def,Cancels]
    split
    · refine ⟨(ih names).1,(ih names).2.imp_right fun all other mem => ?_⟩
      exact ⟨(all other mem).1,(all other mem).2.imp_right (mem_cons_of_mem _)⟩
    rename_i solid
    split
    · cases kept with
      | nil =>
        obtain ⟨more,sunk⟩ : ∃ more, rest.foldl (climb true) [up] = more++[up] := @climb_sunk rest []
        rename_i is
        rw [is]
        refine ⟨⟨fun none_ => ?_,fun cancels => absurd cancels.1 (Nat.lt_irrefl 0)⟩,.inl ⟨more,sunk⟩⟩
        exact absurd (sunk.symm.trans none_) (by simp)
      | cons last kept =>
        obtain ⟨first,others⟩ := forall_mem_cons.mp names
        dsimp only
        rw [if_pos first.2.2]
        refine ⟨(ih others).1.trans (by simp),(ih others).2.imp_right fun all other mem => ?_⟩
        exact ⟨(all other mem).1,(all other mem).2.imp (mem_cons_of_mem _) (mem_cons_of_mem _)⟩
    · rename_i other
      have name : Name part := ⟨(not_or.mp solid).1,(not_or.mp solid).2,other⟩
      obtain ⟨empty,shape⟩ := ih (forall_mem_cons.mpr ⟨name,names⟩)
      refine ⟨empty,shape.imp_right fun all other mem => ⟨(all other mem).1,?_⟩⟩
      rcases (all other mem).2 with held | late
      · exact (mem_cons.mp held).elim (fun same => .inr (same ▸ mem_cons_self)) .inl
      · exact .inr (mem_cons_of_mem _ late)

theorem join_cons (some_ : rest ≠ []) : join (part :: rest) = part++separator :: join rest := by
  cases rest with
  | nil => exact absurd rfl some_
  | cons => simp [join,intercalate]

theorem mem_join : c ∈ join parts → c = separator ∨ ∃ part ∈ parts, c ∈ part := by
  induction parts with
  | nil => simp [join,intercalate]
  | cons part rest ih =>
    rcases eq_or_ne rest [] with rfl | some_
    · exact fun mem => .inr ⟨part,mem_cons_self,by simpa [join,intercalate] using mem⟩
    rw [join_cons some_,mem_append,mem_cons]
    rintro (mem | rfl | mem)
    · exact .inr ⟨part,mem_cons_self,mem⟩
    · exact .inl rfl
    · exact (ih mem).imp_right fun ⟨other,there,inside⟩ => ⟨other,mem_cons_of_mem _ there,inside⟩

theorem join_mem (mem : part ∈ parts) (inside : c ∈ part) : c ∈ join parts := by
  induction parts with
  | nil => cases mem
  | cons first rest ih =>
    rcases eq_or_ne rest [] with rfl | some_
    · cases mem_singleton.mp mem
      simpa [join,intercalate] using inside
    rw [join_cons some_,mem_append,mem_cons]
    rcases mem_cons.mp mem with rfl | late
    · exact .inl inside
    · exact .inr (.inr (ih late))

theorem join_last (some_ : parts ≠ []) : join (parts++[last]) = join parts++separator :: last := by
  induction parts with
  | nil => exact absurd rfl some_
  | cons first rest ih =>
    rcases eq_or_ne rest [] with rfl | more
    · simp [join,intercalate]
    rw [cons_append,join_cons (by simp),join_cons more,ih more,append_assoc,cons_append]

def written (names : List Text) (closed : Bool) : Text := if closed then join names++[separator] else join names
def tail (closed : Bool) : List Text := if closed then [[]] else []

theorem stripped_relative : (stripped value).head? ≠ some separator := by
  have first := head?_dropWhile_not (fun c : UInt16 => decide (c = separator)) value
  intro starts
  rw [stripped] at starts
  rw [starts] at first
  simp at first

theorem normalize_relative (relative : path.head? ≠ some separator) : normalize path =
    if join (normalizeParts true (split path)) = [] then (if path.getLast? = some separator then here++[separator] else here)
    else written (normalizeParts true (split path)) (path.getLast? = some separator) := by
  unfold normalize written
  cases path with
  | nil => rfl
  | cons c =>
    have other : c ≠ separator := by simpa using relative
    simp [other]

theorem parts_names (names : ∀ part ∈ parts, Name part) (closed : Bool) : normalizeParts above (parts++tail closed) = parts := by
  rw [normalizeParts,foldl_append,names_kept names]
  cases closed
  · simp [tail]
  · simp [tail,climb]

section
variable (free : ∀ part ∈ parts, separator ∉ part) (some_ : parts ≠ []) (names : ∀ part ∈ parts, Name part)
include free some_

theorem split_written : split (written parts closed) = parts++tail closed := by
  cases closed
  · exact (splitOn_intercalate separator free some_).trans (append_nil _).symm
  have whole : written parts true = join (parts++[[]]) := (join_last some_).symm
  rw [whole]
  refine splitOn_intercalate separator (fun part mem => ?_) (by simp)
  rcases mem_append.mp mem with held | last
  · exact free part held
  · rw [mem_singleton.mp last]
    exact not_mem_nil

include names

theorem written_ends : (written parts closed).head? ≠ some separator ∧ ((written parts closed).getLast? = some separator ↔ closed = true) ∧
    join parts ≠ [] := by
  obtain ⟨first,rest,rfl⟩ := exists_cons_of_ne_nil some_
  obtain ⟨c,text,rfl⟩ := exists_cons_of_ne_nil (names first mem_cons_self).1
  have start : ∃ more, join ((c :: text) :: rest) = c :: more := by
    rcases eq_or_ne rest [] with rfl | more
    · exact ⟨text,by simp [join,intercalate]⟩
    · exact ⟨_,join_cons more⟩
  obtain ⟨_,begins⟩ := start
  have other : c ≠ separator := fun same => free _ mem_cons_self (same ▸ mem_cons_self)
  refine ⟨by cases closed <;> simp [written,begins,other],?_,by simp [begins]⟩
  cases closed
  · obtain ⟨front,last,whole⟩ := eq_nil_or_concat ((c :: text) :: rest) |>.resolve_left some_
    have there : last ∈ (c :: text) :: rest := by rw [whole]; simp
    have ends : (join ((c :: text) :: rest)).getLast? = last.getLast? := by
      obtain ⟨d,_,same⟩ := exists_cons_of_ne_nil (names last there).1
      rw [whole]
      rcases eq_or_ne front [] with rfl | many
      · simp [join,intercalate]
      · rw [concat_eq_append,join_last many,getLast?_append,same]
        simp [getLast?_cons]
    refine iff_of_false (fun slash => free last there ?_) nofun
    exact mem_of_getLast? (ends.symm.trans slash)
  · simp [written]

theorem normalize_written : normalize (stripped (written parts closed)) = written parts closed := by
  obtain ⟨relative,ends,solid⟩ : (written parts closed).head? ≠ some separator ∧ _ ∧ _ := written_ends free some_ names
  have same : stripped (written parts closed) = written parts closed := by
    cases whole : written parts closed with
    | nil => rfl
    | cons c rest =>
      rw [whole] at relative
      exact dropWhile_cons_of_neg (by simpa using relative)
  rw [same,normalize_relative relative,split_written free some_,parts_names names,if_neg solid]
  cases closed <;> simp [ends]
end

theorem safe_good (safe : safeRelativePath value = some normalized) : 0 ∉ value ∧ 0x5C ∉ value ∧ normalized = normalize (stripped value) ∧
    ¬(normalized = [] ∨ normalized = here ∨ normalized = up ∨ up++[separator] <+: normalized ∨ normalized.head? = some separator) := by
  unfold safeRelativePath at safe
  split at safe
  · cases safe
  rename_i plain
  dsimp only at safe
  split at safe
  · cases safe
  rename_i apart
  cases safe
  exact ⟨fun bad => plain (.inr (.inl bad)),fun bad => plain (.inr (.inr bad)),rfl,apart⟩

theorem inside_written (names : ∀ part ∈ parts, Name part ∧ part ∈ split (stripped value)) (some_ : parts ≠ [])
    (safe : safeRelativePath value = some (written parts closed)) : Inside value (written parts closed) := by
  have proper := fun part mem => (names part mem).1
  have free : ∀ part ∈ parts, separator ∉ part := fun part mem => split_free _ part (names part mem).2
  obtain ⟨zero,back,_,apart⟩ := safe_good safe
  have from_ : ∀ c ∈ written parts closed, c = separator ∨ c ∈ value := by
    intro c mem
    have inside : c = separator ∨ c ∈ join parts := by
      cases closed
      · exact .inr mem
      · exact (mem_append.mp mem).symm.imp_left mem_singleton.mp
    refine inside.elim .inl fun joined => (mem_join joined).imp_right fun ⟨part,there,held⟩ => ?_
    have whole : c ∈ join (split (stripped value)) := join_mem (names part there).2 held
    rw [show join (split (stripped value)) = stripped value from intercalate_splitOn separator] at whole
    exact (dropWhile_suffix _).subset whole
  have split_ : split (written parts closed) = _ := split_written free some_
  refine ⟨⟨parts,some_,proper,?_⟩,?_,fun root rooted => ⟨parts,some_,?_⟩⟩
  · rw [split_]
    cases closed
    · exact .inl (append_nil _)
    · exact .inr rfl
  · rw [safeRelativePath,if_neg (by
      rintro (none_ | bad | bad)
      · exact apart (.inl none_)
      · exact (from_ _ bad).elim (by decide) zero
      · exact (from_ _ bad).elim (by decide) back)]
    rw [normalize_written free some_ proper,if_neg apart]
  have landed : normalizeParts false (root++split (written parts closed)) = root++parts := by
    rw [split_,←append_assoc]
    exact parts_names (forall_mem_append.mpr ⟨rooted,proper⟩) closed
  rw [resolve,safe,Option.bind_eq_bind,Option.bind_some,landed,if_pos (prefix_append _ _)]

end LedgeTopOps.StoragePaths
