import Mathlib.Data.List.Sort
import Mathlib.Data.List.Lex
import Mathlib.Data.List.Perm.Subperm

namespace LedgeTopOps.ClosedCodec
open List
open Option (bind_eq_bind bind_eq_some_iff filter_eq_some_iff map_eq_some_iff map_some)

-- Text as UTF-16 units, with lone surrogates where there are any.
abbrev Text := List UInt16

-- A JavaScript value as a closed reader sees it. `plain`: an object's prototype is Object.prototype or null, its own
-- keys are strings; an array's are its length and all its indices; all name enumerable data properties.
inductive JsValue where
  | null
  | other
  | bool (value : Bool)
  | number (value : Int)
  | string (value : Text)
  | array (plain : Bool) (items : List JsValue)
  | object (plain : Bool) (members : List (Text × JsValue))

mutual
inductive Rearranged : JsValue → JsValue → Prop where
  | same : Rearranged value value
  | array (pairs : Forall₂ Rearranged items middle) (moved : middle.Perm others) :
      Rearranged (.array plain items) (.array plain others)
  | object (pairs : Members members middle) (moved : middle.Perm others) :
      Rearranged (.object plain members) (.object plain others)

inductive Members : List (Text × JsValue) → List (Text × JsValue) → Prop where
  | nil : Members [] []
  | cons (first : Rearranged value again) (rest : Members members others) :
      Members ((name,value) :: members) ((name,again) :: others)
end

def scalar : JsValue → Bool
  | .array _ _ => false
  | .object _ _ => false
  | _ => true

theorem Rearranged.scalar_eq (rearranged : Rearranged value again) (plain : scalar value) : again = value := by
  cases rearranged with
  | same => rfl
  | array | object => cases plain

theorem Members.names (members : Members left right) : right.map Prod.fst = left.map Prod.fst := by
  induction left generalizing right with
  | nil =>
    cases members
    rfl
  | cons _ _ ih =>
    cases members with
    | cons _ others => rw [map_cons,map_cons,ih others]

theorem Members.found (members : Members left right) (member : (name,value) ∈ left) : ∃ again, (name,again) ∈ right ∧ Rearranged value again := by
  induction left generalizing right with
  | nil => cases member
  | cons _ _ ih =>
    cases members with
    | cons first others =>
      rcases mem_cons.mp member with same | deep
      · cases same
        exact ⟨_,mem_cons_self ..,first⟩
      obtain ⟨again,there,rearranged⟩ := ih others deep
      exact ⟨again,mem_cons_of_mem _ there,rearranged⟩

def exactObject (keys : List Text) : JsValue → Option (List JsValue)
  | .object true members =>
    if members.length ≠ keys.length ∨ members.any fun member => !keys.contains member.1 then none
    else keys.mapM fun key => members.lookup key
  | _ => none

def exactArray (maximum : Nat) : JsValue → Option (List JsValue)
  | .array true items => if items.length ≤ maximum then some items else none
  | _ => none

section
variable {keys : List Text} {members others : List (Text × JsValue)}

theorem mapM_some {read : α → Option β} {items : List α} : (item :: items).mapM read = some results ↔
    ∃ one, read item = some one ∧ ∃ others, items.mapM read = some others ∧ one :: others = results := by
  simp only [mapM_cons,bind_eq_bind,bind_eq_some_iff,Option.pure_def,Option.some.injEq]

theorem mapM_length {read : α → Option β} {items : List α} (done : items.mapM read = some results) : results.length = items.length := by
  induction items generalizing results with
  | nil =>
    cases done
    rfl
  | cons _ _ ih =>
    obtain ⟨_,-,_,more,rfl⟩ := mapM_some.mp done
    rw [length_cons,length_cons,ih more]

theorem lookup_some (found : members.lookup key = some value) : (key,value) ∈ members := by
  induction members with
  | nil => cases found
  | cons head rest ih =>
    obtain ⟨name,one⟩ := head
    rw [lookup_cons] at found
    split at found
    · rename_i same
      cases found
      rw [beq_iff_eq.mp same]
      exact mem_cons_self ..
    exact mem_cons_of_mem _ (ih found)

theorem lookup_member (apart : (members.map Prod.fst).Nodup) (member : (key,value) ∈ members) : members.lookup key = some value := by
  induction members with
  | nil => cases member
  | cons head _ ih =>
    obtain ⟨name,_⟩ := head
    obtain ⟨absent,distinct⟩ := nodup_cons.mp apart
    rw [lookup_cons]
    rcases mem_cons.mp member with same | deep
    · cases same
      simp
    have different : (key == name) = false := by
      refine beq_eq_false_iff_ne.mpr fun same => absent ?_
      exact mem_map.mpr ⟨_,deep,same⟩
    rw [different]
    exact ih distinct deep

theorem mapM_lookup_mem (done : (keys.mapM fun key => members.lookup key) = some values) (member : key ∈ keys) : key ∈ members.map Prod.fst := by
  induction keys generalizing values with
  | nil => cases member
  | cons _ _ ih =>
    obtain ⟨_,found,_,more,rfl⟩ := mapM_some.mp done
    rcases mem_cons.mp member with rfl | deep
    · exact mem_map.mpr ⟨_,lookup_some found,rfl⟩
    exact ih more deep

theorem exactObject_some : exactObject keys (.object true members) = some values ↔
    (members.length = keys.length ∧ ∀ member ∈ members, member.1 ∈ keys) ∧ (keys.mapM fun key => members.lookup key) = some values := by
  have fits : ¬(members.length ≠ keys.length ∨ (members.any fun member => !keys.contains member.1)) ↔
      members.length = keys.length ∧ ∀ member ∈ members, member.1 ∈ keys := by
    simp
  show (if _ then none else _) = some values ↔ _
  rw [←fits]
  split
  · rename_i bad
    exact ⟨fun none_ => (nomatch none_),fun both => absurd bad both.1⟩
  rename_i good
  exact ⟨fun read => ⟨good,read⟩,fun both => both.2⟩

theorem exactObject_object (done : exactObject keys value = some values) : ∃ members, value = .object true members := by
  unfold exactObject at done
  split at done
  · exact ⟨_,rfl⟩
  cases done

theorem exactObject_names (distinct : keys.Nodup) (done : exactObject keys (.object true members) = some values) : (members.map Prod.fst).Perm keys := by
  obtain ⟨⟨long,-⟩,read⟩ := exactObject_some.mp done
  have inside : keys ⊆ members.map Prod.fst := fun key member => mapM_lookup_mem read member
  refine ((subperm_of_subset distinct inside).perm_of_length_le ?_).symm
  rw [length_map,long]

theorem mapM_rearranged (apart : (others.map Prod.fst).Nodup)
    (kept : ∀ key value, (key,value) ∈ members → ∃ again, (key,again) ∈ others ∧ Rearranged value again)
    (done : (keys.mapM fun key => members.lookup key) = some values) :
    ∃ reread, (keys.mapM fun key => others.lookup key) = some reread ∧ Forall₂ Rearranged values reread := by
  induction keys generalizing values with
  | nil =>
    cases done
    exact ⟨[],rfl,.nil⟩
  | cons head _ ih =>
    obtain ⟨value,found,_,tail,rfl⟩ := mapM_some.mp done
    obtain ⟨again,there,rearranged⟩ := kept head value (lookup_some found)
    obtain ⟨reread,read,pairs⟩ := ih tail
    refine ⟨again :: reread,?_,.cons rearranged pairs⟩
    simp [lookup_member apart there,read]

theorem exactObject_rearranged (distinct : keys.Nodup) (done : exactObject keys value = some values) (rearranged : Rearranged value again) :
    ∃ reread, exactObject keys again = some reread ∧ Forall₂ Rearranged values reread := by
  cases rearranged with
  | same => exact ⟨values,done,forall₂_same.mpr fun _ _ => .same⟩
  | array => cases done
  | @object members middle others plain pairs moved =>
    obtain ⟨_,same⟩ := exactObject_object done
    cases same
    have names := exactObject_names distinct done
    have order : (others.map Prod.fst).Perm keys := by
      refine (moved.symm.map Prod.fst).trans ?_
      rw [pairs.names]
      exact names
    have fits : others.length = keys.length ∧ ∀ member ∈ others, member.1 ∈ keys := by
      refine ⟨?_,fun member there => order.mem_iff.mp (mem_map_of_mem there)⟩
      rw [←order.length_eq,length_map]
    obtain ⟨reread,read,values_⟩ := mapM_rearranged (order.nodup_iff.mpr distinct) (fun key value member => by
      obtain ⟨one,there,again⟩ := pairs.found member
      exact ⟨one,moved.mem_iff.mp there,again⟩) (exactObject_some.mp done).2
    exact ⟨reread,exactObject_some.mpr ⟨fits,read⟩,values_⟩

theorem mapM_zip (distinct : keys.Nodup) (long : values.length = keys.length) (inside : ∀ pair ∈ keys.zip values, pair ∈ members)
    (apart : (members.map Prod.fst).Nodup) : (keys.mapM fun key => members.lookup key) = some values := by
  induction keys generalizing values with
  | nil =>
    rw [length_eq_zero_iff.mp long]
    rfl
  | cons head _ ih =>
    cases values with
    | nil => cases long
    | cons value =>
      have first := lookup_member apart (inside (head,value) (mem_cons_self ..))
      have tail := ih (nodup_cons.mp distinct).2 (Nat.succ.inj long) fun pair member => inside pair (mem_cons_of_mem _ member)
      simp [first,tail]

theorem exactObject_written (distinct : keys.Nodup) (long : values.length = keys.length) : exactObject keys (.object true (keys.zip values)) = some values := by
  have names : (keys.zip values).map Prod.fst = keys := map_fst_zip (by omega)
  have fits : (keys.zip values).length = keys.length ∧ ∀ member ∈ keys.zip values, member.1 ∈ keys := by
    refine ⟨?_,fun member there => ?_⟩
    · rw [length_zip]
      omega
    have inside : member.1 ∈ (keys.zip values).map Prod.fst := mem_map_of_mem there
    rwa [names] at inside
  refine exactObject_some.mpr ⟨fits,mapM_zip distinct long (fun _ member => member) ?_⟩
  rw [names]
  exact distinct
end

-- A reader with its writer. What was read is read again from what is written of
-- it and, where it is good, from the value rearranged in any way.
structure Codec (α : Type*) where
  read : JsValue → Option α
  write : α → JsValue
  Good : α → Prop
  round : ∀ {value x}, read value = some x → read (write x) = some x
  stable : ∀ {value again x}, read value = some x → Good x → Rearranged value again → read again = some x

def Codec.exactly (read : JsValue → Option α) (write : α → JsValue)
    (kept : ∀ {value x}, read value = some x → write x = value ∧ scalar value = true) : Codec α where
  read := read
  write := write
  Good _ := True
  round done := by
    rw [(kept done).1]
    exact done
  stable done _ rearranged := by
    rw [rearranged.scalar_eq (kept done).2]
    exact done

def Codec.text (accepts : Text → Bool) : Codec Text :=
  .exactly
    (fun value => match value with
      | .string text => if accepts text then some text else none
      | _ => none)
    .string
    (by
      intro _ x done
      split at done
      · split at done
        · cases done
          exact ⟨rfl,rfl⟩
        · cases done
      cases done)

def Codec.flag : Codec Bool :=
  .exactly
    (fun value => match value with
      | .bool flag => some flag
      | _ => none)
    .bool
    (by
      intro _ x done
      split at done
      · cases done
        exact ⟨rfl,rfl⟩
      cases done)

def Codec.integer : Codec Int :=
  .exactly
    (fun value => match value with
      | .number number => some number
      | _ => none)
    .number
    (by
      intro _ x done
      split at done
      · cases done
        exact ⟨rfl,rfl⟩
      cases done)

def Codec.named (choices : List α) (name : α → Text) : Codec α :=
  .exactly
    (fun value => match value with
      | .string text => choices.find? fun choice => name choice == text
      | _ => none)
    (fun choice => .string (name choice))
    (by
      intro _ x done
      split at done
      · have met := find?_some done
        exact ⟨congrArg JsValue.string (beq_iff_eq.mp met),rfl⟩
      cases done)

def Codec.nullable (codec : Codec α) (present : codec.read .null = none) : Codec (Option α) where
  read value := match value with
    | .null => some none
    | value => (codec.read value).map some
  write x := match x with
    | none => .null
    | some x => codec.write x
  Good x := ∀ one ∈ x, codec.Good one
  round {value x} done := by
    split at done
    · cases done
      rfl
    obtain ⟨one,read,rfl⟩ := map_eq_some_iff.mp done
    have again := codec.round read
    show (match codec.write one with
      | .null => some none
      | value => (codec.read value).map some) = _
    split
    · rename_i null
      rw [null,present] at again
      cases again
    rw [again]
    rfl
  stable {value again x} done good rearranged := by
    split at done
    · cases done
      rw [rearranged.scalar_eq rfl]
    obtain ⟨one,read,rfl⟩ := map_eq_some_iff.mp done
    have reread := codec.stable read (good one rfl) rearranged
    split
    · rw [present] at reread
      cases reread
    rw [reread]
    rfl

theorem Codec.nullable_good {codec : Codec α} (present : codec.read .null = none) (good : ∀ x, codec.Good x) (x : Option α) :
    (codec.nullable present).Good x := fun one _ => good one

def Codec.checked (codec : Codec α) (check : α → Bool) : Codec α where
  read value := (codec.read value).filter check
  write := codec.write
  Good := codec.Good
  round done := by
    obtain ⟨read,met⟩ := filter_eq_some_iff.mp done
    rw [codec.round read]
    exact filter_eq_some_iff.mpr ⟨rfl,met⟩
  stable done good rearranged := by
    obtain ⟨read,met⟩ := filter_eq_some_iff.mp done
    rw [codec.stable read good rearranged]
    exact filter_eq_some_iff.mpr ⟨rfl,met⟩

def Codec.as (codec : Codec α) (into : α → β) (out : β → α) (same : ∀ x, out (into x) = x) : Codec β where
  read value := (codec.read value).map into
  write x := codec.write (out x)
  Good x := codec.Good (out x)
  round done := by
    obtain ⟨_,read,rfl⟩ := map_eq_some_iff.mp done
    rw [same,codec.round read]
    rfl
  stable done good rearranged := by
    obtain ⟨_,read,rfl⟩ := map_eq_some_iff.mp done
    rw [same] at good
    rw [codec.stable read good rearranged]
    rfl

structure Fields (n : Nat) (α : Type*) where
  read : List JsValue → Option α
  write : α → List JsValue
  Good : α → Prop
  long : ∀ x, (write x).length = n
  round : ∀ {values x}, read values = some x → read (write x) = some x
  stable : ∀ {values again x}, read values = some x → Good x → Forall₂ Rearranged values again → read again = some x

def Fields.nil : Fields 0 Unit where
  read values := match values with
    | [] => some ()
    | _ => none
  write _ := []
  Good _ := True
  long _ := rfl
  round _ := rfl
  stable {values again x} done _ pairs := by
    cases pairs with
    | nil => exact done
    | cons => cases done

def Fields.cons (codec : Codec α) (fields : Fields n β) : Fields (n+1) (α × β) where
  read values := match values with
    | value :: rest => (codec.read value).bind fun x => (fields.read rest).map fun more => (x,more)
    | [] => none
  write x := codec.write x.1 :: fields.write x.2
  Good x := codec.Good x.1 ∧ fields.Good x.2
  long x := by rw [length_cons,fields.long]
  round {values x} done := by
    cases values with
    | nil => cases done
    | cons =>
      obtain ⟨one,first,tail⟩ := bind_eq_some_iff.mp done
      obtain ⟨more,others,rfl⟩ := map_eq_some_iff.mp tail
      show (codec.read (codec.write one)).bind _ = _
      rw [codec.round first]
      show (fields.read (fields.write more)).map _ = _
      rw [fields.round others]
      rfl
  stable {values again x} done good pairs := by
    cases pairs with
    | nil => cases done
    | cons head rest =>
      obtain ⟨_,first,tail⟩ := bind_eq_some_iff.mp done
      obtain ⟨_,others,rfl⟩ := map_eq_some_iff.mp tail
      show (codec.read _).bind _ = _
      rw [codec.stable first good.1 head]
      show (fields.read _).map _ = _
      rw [fields.stable others good.2 rest]
      rfl

def Codec.record (keys : List Text) (fields : Fields keys.length α) (distinct : keys.Nodup) : Codec α where
  read value := (exactObject keys value).bind fields.read
  write x := .object true (keys.zip (fields.write x))
  Good := fields.Good
  round done := by
    obtain ⟨_,_,fields_⟩ := bind_eq_some_iff.mp done
    rw [exactObject_written distinct (fields.long _)]
    exact fields.round fields_
  stable done good rearranged := by
    obtain ⟨_,read,fields_⟩ := bind_eq_some_iff.mp done
    obtain ⟨_,again,pairs⟩ := exactObject_rearranged distinct read rearranged
    rw [again]
    exact fields.stable fields_ good pairs

def units (text : Text) : List Nat := text.map UInt16.toNat
def sortKey (key : α → List Text) (x : α) : List (List Nat) := (key x).map units

def sortBy (key : α → List Text) (rows : List α) : List α :=
  rows.insertionSort fun left right => sortKey key left ≤ sortKey key right

section
variable {rows others : List α}

theorem sortBy_perm (key : α → List Text) (rows : List α) : (sortBy key rows).Perm rows := perm_insertionSort _ _

theorem sortBy_pairwise (key : α → List Text) (rows : List α) : (sortBy key rows).Pairwise fun left right => sortKey key left ≤ sortKey key right := by
  have total : Std.Total fun left right : α => sortKey key left ≤ sortKey key right := ⟨fun _ _ => le_total _ _⟩
  have trans : IsTrans α fun left right => sortKey key left ≤ sortKey key right := ⟨fun _ _ _ => le_trans⟩
  exact pairwise_insertionSort _ rows

theorem units_injective : Function.Injective units := map_injective_iff.mpr fun _ _ => UInt16.toNat_inj.mp

theorem sortBy_eq (order : rows.Perm others) (distinct : (rows.map key).Nodup) : sortBy key rows = sortBy key others := by
  refine Perm.eq_of_pairwise ?_ (sortBy_pairwise key rows) (sortBy_pairwise key others)
    (((sortBy_perm key rows).trans order).trans (sortBy_perm key others).symm)
  intro left right there here below above
  have same : sortKey key left = sortKey key right := le_antisymm below above
  have keys : key left = key right := map_injective_iff.mpr units_injective same
  have first : left ∈ rows := (sortBy_perm key rows).mem_iff.mp there
  have second : right ∈ rows := order.mem_iff.mpr ((sortBy_perm key others).mem_iff.mp here)
  exact inj_on_of_nodup_map distinct first second keys

theorem keys_distinct (distinct : (rows.map reading).Nodup)
    (determines : ∀ left right, key left = key right → reading left = reading right) : (rows.map key).Nodup := by
  unfold Nodup at distinct ⊢
  rw [pairwise_map] at distinct ⊢
  exact distinct.imp fun apart same => apart (determines _ _ same)

theorem sortBy_sorted (rows : List α) : sortBy key (sortBy key rows) = sortBy key rows := by
  exact (sortBy_pairwise key rows).insertionSort_eq
end

section
variable {codec : Codec α} {items middle others : List JsValue} {rows more : List α}

theorem mapM_source (done : items.mapM codec.read = some rows) (member : x ∈ rows) : ∃ value, codec.read value = some x := by
  induction items generalizing rows with
  | nil =>
    cases done
    cases member
  | cons item _ ih =>
    obtain ⟨_,read,_,others,rfl⟩ := mapM_some.mp done
    rcases mem_cons.mp member with rfl | deep
    · exact ⟨item,read⟩
    exact ih others deep

theorem mapM_written (read : ∀ x ∈ rows, codec.read (codec.write x) = some x) : (rows.map codec.write).mapM codec.read = some rows := by
  induction rows with
  | nil => rfl
  | cons x _ ih =>
    have first := read x (mem_cons_self ..)
    have tail := ih fun one member => read one (mem_cons_of_mem _ member)
    rw [map_cons,mapM_cons,first,tail]
    rfl

theorem mapM_stable (done : items.mapM codec.read = some rows) (good : ∀ x ∈ rows, codec.Good x)
    (pairs : Forall₂ Rearranged items middle) : middle.mapM codec.read = some rows := by
  induction pairs generalizing rows with
  | nil => exact done
  | cons first _ ih =>
    obtain ⟨one,read,_,others,rfl⟩ := mapM_some.mp done
    have head := codec.stable read (good one (mem_cons_self ..)) first
    have more := ih others fun x member => good x (mem_cons_of_mem _ member)
    rw [mapM_cons,head,more]
    rfl

theorem mapM_perm {read : α → Option β} {values again : List α} (order : values.Perm again)
    (done : values.mapM read = some results) : ∃ moved, again.mapM read = some moved ∧ results.Perm moved := by
  induction order generalizing results with
  | nil => exact ⟨results,done,Perm.refl _⟩
  | cons _ _ ih =>
    obtain ⟨one,first,_,others,rfl⟩ := mapM_some.mp done
    obtain ⟨moved,reread,same⟩ := ih others
    refine ⟨one :: moved,?_,same.cons one⟩
    rw [mapM_cons,first,reread]
    rfl
  | swap =>
    obtain ⟨one,first,_,tail,rfl⟩ := mapM_some.mp done
    obtain ⟨two,second,deep,others,rfl⟩ := mapM_some.mp tail
    refine ⟨two :: one :: deep,?_,Perm.swap two one deep⟩
    rw [mapM_cons,second,mapM_cons,first,others]
    rfl
  | trans _ _ left right =>
    obtain ⟨_,first,same⟩ := left done
    obtain ⟨moved,second,again⟩ := right first
    exact ⟨moved,second,same.trans again⟩

theorem exactArray_some {maximum} : exactArray maximum value = some items ↔ value = .array true items ∧ items.length ≤ maximum := by
  unfold exactArray
  split
  · split
    · rename_i fits
      constructor
      · intro done
        cases done
        exact ⟨rfl,fits⟩
      intro both
      cases both.1
      rfl
    · rename_i long
      constructor
      · intro done
        cases done
      intro both
      cases both.1
      exact absurd both.2 long
  rename_i different
  constructor
  · intro done
    cases done
  intro both
  exact absurd both.1 (different items)
end

def Codec.rows (maximum : Nat) (codec : Codec α) (key : α → List Text) : Codec (List α) where
  read value := (exactArray maximum value).bind fun items => (items.mapM codec.read).map (sortBy key)
  write rows := .array true (rows.map codec.write)
  Good rows := (∀ x ∈ rows, codec.Good x) ∧ (rows.map key).Nodup
  round {value rows} done := by
    obtain ⟨_,plain,tail⟩ := bind_eq_some_iff.mp done
    obtain ⟨parsed,read,rfl⟩ := map_eq_some_iff.mp tail
    obtain ⟨-,fits⟩ := exactArray_some.mp plain
    have long : ((sortBy key parsed).map codec.write).length ≤ maximum := by
      rw [length_map,(sortBy_perm key parsed).length_eq,mapM_length read]
      exact fits
    have again : ∀ x ∈ sortBy key parsed, codec.read (codec.write x) = some x := by
      intro x member
      obtain ⟨_,first⟩ := mapM_source read ((sortBy_perm key parsed).mem_iff.mp member)
      exact codec.round first
    rw [exactArray_some.mpr ⟨rfl,long⟩]
    show (((sortBy key parsed).map codec.write).mapM codec.read).map (sortBy key) = _
    rw [mapM_written again,map_some,sortBy_sorted]
  stable {value again rows} done good rearranged := by
    obtain ⟨items,plain,tail⟩ := bind_eq_some_iff.mp done
    obtain ⟨parsed,read,rfl⟩ := map_eq_some_iff.mp tail
    obtain ⟨rfl,fits⟩ := exactArray_some.mp plain
    have order := sortBy_perm key parsed
    have goods : ∀ x ∈ parsed, codec.Good x := fun x member => good.1 x (order.mem_iff.mpr member)
    have distinct : (parsed.map key).Nodup := (order.map key).nodup_iff.mp good.2
    cases rearranged with
    | same => exact done
    | array pairs moved =>
      obtain ⟨reread,second,same⟩ := mapM_perm moved (mapM_stable read goods pairs)
      rename_i middle others
      have long : others.length ≤ maximum := by
        rw [←moved.length_eq,←pairs.length_eq]
        exact fits
      rw [exactArray_some.mpr ⟨rfl,long⟩]
      show (others.mapM codec.read).map (sortBy key) = _
      rw [second,map_some,sortBy_eq same distinct]

theorem rows_single {codec : Codec α} (good : ∀ x, codec.Good x)
    (done : (Codec.rows 1 codec key).read value = some rows) : (Codec.rows 1 codec key).Good rows := by
  obtain ⟨_,plain,tail⟩ := bind_eq_some_iff.mp done
  obtain ⟨parsed,read,rfl⟩ := map_eq_some_iff.mp tail
  obtain ⟨-,fits⟩ := exactArray_some.mp plain
  refine ⟨fun x _ => good x,?_⟩
  have few : ((sortBy key parsed).map key).length ≤ 1 := by
    rw [length_map,(sortBy_perm key parsed).length_eq,mapM_length read]
    exact fits
  cases list : (sortBy key parsed).map key with
  | nil => exact nodup_nil
  | cons _ rest =>
    rw [list] at few
    cases rest with
    | nil => exact nodup_singleton _
    | cons => exact absurd few (by simp)

def Codec.settled (codec : Codec α) (good : ∀ {value x}, codec.read value = some x → codec.Good x) : Codec α where
  read := codec.read
  write := codec.write
  Good _ := True
  round := codec.round
  stable done _ rearranged := codec.stable done (good done) rearranged
end LedgeTopOps.ClosedCodec
