import LedgeTopOps.JsonText

namespace LedgeTopOps.CsvRows
open List JsonText

def quote : UInt16 := 0x22
def comma : UInt16 := 0x2C
def lf : UInt16 := 0x0A
def cr : UInt16 := 0x0D

structure Scan where
  rows : List (List Text)
  row : List Text
  value : Text
  quoted : Bool

def stripReturn (value : Text) : Text := if value.getLast? = some cr then value.dropLast else value

def Scan.pushRow (s : Scan) : List (List Text) :=
  let row := s.row++[stripReturn s.value]
  if row.any fun cell => trim cell ≠ [] then s.rows++[row] else s.rows

def scan (s : Scan) : Text → Except String Scan
  | [] => .ok s
  | c :: rest =>
    if s.quoted then
      if c = quote then
        match rest with
        | d :: more => if d = quote then scan { s with value := s.value++[quote] } more else scan { s with quoted := false } (d :: more)
        | [] => .ok { s with quoted := false }
      else scan { s with value := s.value++[c] } rest
    else if c = quote then
      if s.value ≠ [] then .error "quote must begin at the start of a CSV field" else scan { s with quoted := true } rest
    else if c = comma then scan { s with row := s.row++[s.value], value := [] } rest
    else if c = lf then scan ⟨s.pushRow,[],[],s.quoted⟩ rest
    else scan { s with value := s.value++[c] } rest

def parseCsvRows (source : Text) : Except String (List (List Text)) := do
  let s ← scan ⟨[],[],[],false⟩ source
  if s.quoted then throw "CSV contains an unterminated quoted field"
  return s.pushRow

structure Cell where
  text : Text
  quoted : Bool

inductive Break where
  | lf | crlf

def special (c : UInt16) : Prop := c = comma ∨ c = quote ∨ c = cr ∨ c = lf

def escaped (text : Text) : Text := text.flatMap fun c => if c = quote then [quote,quote] else [c]

def Cell.written (cell : Cell) : Text := if cell.quoted then quote :: (escaped cell.text++[quote]) else cell.text
def Cell.Legal (cell : Cell) : Prop := cell.quoted = false → ∀ c ∈ cell.text, ¬special c

def writtenRow : List Cell → Text
  | [] => []
  | [cell] => cell.written
  | cell :: rest => cell.written++comma :: writtenRow rest

def Break.written : Break → Text
  | .lf => [CsvRows.lf]
  | .crlf => [cr,CsvRows.lf]

structure Table where
  ended : List (List Cell × Break)
  last : Option (List Cell)

def Table.rows (table : Table) : List (List Cell) := table.ended.map Prod.fst++table.last.toList
def Table.written (table : Table) : Text :=
  (table.ended.flatMap fun line => writtenRow line.1++line.2.written)++(table.last.elim [] writtenRow)

structure Table.Legal (table : Table) : Prop where
  cells : ∀ row ∈ table.rows, ∀ cell ∈ row, cell.Legal
  filled : ∀ row ∈ table.rows, ∃ cell ∈ row, trim cell.text ≠ []

def texts (row : List Cell) : List Text := row.map Cell.text

-- What is left of a row where the scanner takes a trailing return for part of the break.
def stripLast (row : List Cell) : List Text := (texts row).dropLast++(texts row).getLast?.toList.map stripReturn

def read (row : List Cell) : Option Break → List Text
  | some .crlf => texts row
  | _ => stripLast row

def EndsInReturn (row : List Cell) : Prop := ∃ cell ∈ row.getLast?, cell.text.getLast? = some cr

theorem scan_open : scan ⟨rows,row,value,false⟩ (c :: rest) = if c = quote then
      if value ≠ [] then .error "quote must begin at the start of a CSV field" else scan ⟨rows,row,value,true⟩ rest
    else if c = comma then scan ⟨rows,row++[value],[],false⟩ rest else if c = lf then scan ⟨Scan.pushRow ⟨rows,row,value,false⟩,[],[],false⟩ rest
    else scan ⟨rows,row,value++[c],false⟩ rest := by
  rw [scan.eq_def]
  rfl

theorem stripReturn_append : stripReturn (value++[cr]) = value := by simp [stripReturn]

theorem stripReturn_trim : trim (stripReturn value) = [] ↔ trim value = [] := by
  unfold stripReturn
  split
  · rename_i ends
    obtain ⟨_,rfl⟩ := getLast?_eq_some_iff.mp ends
    simp only [dropLast_concat,trim_eq_nil,forall_mem_append,forall_mem_singleton]
    exact ⟨fun blanks => ⟨blanks,by decide⟩,And.left⟩
  · rfl

theorem stripReturn_eq : stripReturn value = value ↔ value.getLast? ≠ some cr := by
  unfold stripReturn
  split
  · rename_i ends
    obtain ⟨_,rfl⟩ := getLast?_eq_some_iff.mp ends
    simp
  · rename_i other
    simp [other]

theorem row_cut (some_ : row ≠ []) : ∃ front last, texts row = front++[last] ∧ stripLast row = front++[stripReturn last] ∧
    (EndsInReturn row ↔ last.getLast? = some cr) := by
  obtain ⟨front,cell,rfl⟩ := eq_nil_or_concat row |>.resolve_left some_
  refine ⟨texts front,cell.text,by simp [texts],by simp [stripLast,texts],by simp [EndsInReturn]⟩

theorem scan_quoted (apart : rest.head? ≠ some quote) : scan ⟨rows,row,value,true⟩ (escaped text++quote :: rest) = scan ⟨rows,row,value++text,false⟩ rest := by
  induction text generalizing value with
  | nil =>
    rw [escaped,flatMap_nil,nil_append,append_nil]
    cases rest with
    | nil => simp [scan]
    | cons d more =>
      have other : d ≠ quote := by simpa using apart
      rw [scan.eq_def]
      simp [other]
  | cons c text ih =>
    rw [escaped,flatMap_cons,append_assoc]
    split
    · rename_i same
      rw [same,cons_append,scan.eq_def]
      exact ih.trans (by rw [append_assoc]; rfl)
    · rename_i other
      rw [cons_append,nil_append,scan.eq_def]
      simp only [if_true,if_neg other]
      exact ih.trans (by rw [append_assoc]; rfl)

theorem scan_bare (plain : ∀ c ∈ text, ¬special c) : scan ⟨rows,row,value,false⟩ (text++rest) = scan ⟨rows,row,value++text,false⟩ rest := by
  induction text generalizing value with
  | nil => simp
  | cons c text ih =>
    obtain ⟨this_,others⟩ := forall_mem_cons.mp plain
    simp only [special,not_or] at this_
    rw [cons_append,scan_open]
    simp only [this_,if_false]
    exact (ih others).trans (by rw [append_assoc]; rfl)

theorem scan_cell {cell : Cell} (legal : cell.Legal) (apart : rest.head? ≠ some quote) :
    scan ⟨rows,row,[],false⟩ (cell.written++rest) = scan ⟨rows,row,cell.text,false⟩ rest := by
  unfold Cell.written
  split
  · rw [cons_append,append_assoc,scan_open,if_pos rfl,if_neg (not_not.mpr rfl)]
    exact scan_quoted apart
  · rename_i bare
    exact scan_bare (legal (by simpa using bare))

theorem scan_row (legal : ∀ cell ∈ cells, cell.Legal) (apart : rest.head? ≠ some quote) (same : texts cells = front++[last]) :
    scan ⟨rows,row,[],false⟩ (writtenRow cells++rest) = scan ⟨rows,row++front,last,false⟩ rest := by
  induction cells generalizing row front with
  | nil => cases front <;> cases same
  | cons cell others ih =>
    obtain ⟨here,later⟩ := forall_mem_cons.mp legal
    cases others with
    | nil =>
      obtain ⟨rfl,rfl⟩ : [] = front ∧ cell.text = last := by
        cases front with
        | nil => simpa [texts] using same
        | cons => simp [texts] at same
      rw [writtenRow,scan_cell here apart,append_nil]
    | cons second others =>
      obtain ⟨front,rfl,next⟩ : ∃ more, front = cell.text :: more ∧ texts (second :: others) = more++[last] := by
        cases front with
        | nil => simp [texts] at same
        | cons => exact ⟨_,by rw [(cons.inj same).1],(cons.inj same).2⟩
      rw [writtenRow,append_assoc,scan_cell here (by simp [comma,quote]),cons_append,scan_open]
      rw [ih later next,append_assoc]
      · rfl
      · simp

theorem pushRow_kept (filled : ∃ cell ∈ cells, trim cell.text ≠ []) (same : texts cells = front++[last]) (of : stripReturn value = last ∨ value = last) :
    Scan.pushRow ⟨rows,front,value,false⟩ = rows++[front++[stripReturn value]] := by
  obtain ⟨cell,mem,full⟩ := filled
  have inside : cell.text ∈ front++[last] := same ▸ mem_map_of_mem mem
  refine if_pos (any_eq_true.mpr ?_)
  rcases mem_append.mp inside with early | ends
  · exact ⟨_,mem_append_left _ early,decide_eq_true full⟩
  refine ⟨stripReturn value,mem_append_right _ mem_cons_self,decide_eq_true ?_⟩
  rw [mem_singleton.mp ends] at full
  rcases of with same | same
  · rwa [same]
  · rw [ne_eq,stripReturn_trim,same]
    exact full

theorem scan_break (legal : ∀ cell ∈ cells, cell.Legal) (filled : ∃ cell ∈ cells, trim cell.text ≠ []) (ending : Break) :
    scan ⟨rows,[],[],false⟩ (writtenRow cells++(ending.written++rest)) = scan ⟨rows++[read cells (some ending)],[],[],false⟩ rest := by
  obtain ⟨_,_,same,cut,_⟩ := row_cut (ne_nil_of_mem filled.choose_spec.1)
  cases ending with
  | lf =>
    rw [scan_row legal (by simp [Break.written,lf,quote]) same,Break.written,singleton_append,scan_open]
    simp only [if_false,show lf ≠ quote by decide,show lf ≠ comma by decide,if_true,nil_append]
    rw [pushRow_kept filled same (.inr rfl),←cut]
    rfl
  | crlf =>
    rw [scan_row legal (by simp [Break.written,cr,quote]) same,Break.written,cons_append,singleton_append,scan_open]
    simp only [if_false,show cr ≠ quote by decide,show cr ≠ comma by decide,show cr ≠ lf by decide]
    rw [scan_open]
    simp only [if_false,show lf ≠ quote by decide,show lf ≠ comma by decide,if_true,nil_append]
    rw [pushRow_kept filled same (.inl stripReturn_append),stripReturn_append,←same]
    rfl

theorem parse_written (table : Table) (legal : table.Legal) : parseCsvRows table.written =
    .ok (table.ended.map (fun line => read line.1 (some line.2))++table.last.toList.map (read · none)) := by
  have lines : ∀ (ended : List (List Cell × Break)) rows rest, (∀ line ∈ ended, (∀ cell ∈ line.1, cell.Legal) ∧ ∃ cell ∈ line.1, trim cell.text ≠ []) →
      scan ⟨rows,[],[],false⟩ ((ended.flatMap fun line => writtenRow line.1++line.2.written)++rest) =
        scan ⟨rows++ended.map fun line => read line.1 (some line.2),[],[],false⟩ rest := by
    intro ended
    induction ended with
    | nil => simp
    | cons line others ih =>
      intro _ _ good
      obtain ⟨here,later⟩ := forall_mem_cons.mp good
      rw [flatMap_cons,append_assoc,append_assoc,scan_break here.1 here.2,ih _ _ later,map_cons,append_assoc]
      rfl
  have good : ∀ line ∈ table.ended, (∀ cell ∈ line.1, cell.Legal) ∧ ∃ cell ∈ line.1, trim cell.text ≠ [] := fun line mem =>
    have inside := mem_append_left table.last.toList (mem_map_of_mem (f := Prod.fst) mem)
    ⟨legal.cells _ inside,legal.filled _ inside⟩
  rw [parseCsvRows,Table.written,lines _ _ _ good]
  cases last : table.last with
  | none =>
    simp [scan,Scan.pushRow,stripReturn,trim]
    rfl
  | some row =>
    have inside : row ∈ table.rows := mem_append_right _ (by simp [last])
    obtain ⟨_,_,same,cut,_⟩ := row_cut (ne_nil_of_mem (legal.filled _ inside).choose_spec.1)
    have ran : scan ⟨[]++table.ended.map (fun line => read line.1 (some line.2)),[],[],false⟩ (writtenRow row++[]) = _ :=
      scan_row (legal.cells _ inside) (by simp) same
    rw [append_nil] at ran
    rw [Option.elim_some,ran,scan]
    change Except.ok _ = _
    rw [nil_append,nil_append,pushRow_kept (legal.filled _ inside) same (.inr rfl),←cut]
    rfl

theorem read_eq (some_ : row ≠ []) : read row ending = texts row ↔ (ending ≠ some .crlf → ¬EndsInReturn row) := by
  obtain ⟨_,_,same,cut,ends⟩ := row_cut some_
  have strips : stripLast row = texts row ↔ ¬EndsInReturn row := by
    rw [same,cut,append_cancel_left_eq,List.singleton_inj,stripReturn_eq,ends]
  rcases ending with _ | _ | _
  · exact strips.trans (by simp)
  · exact strips.trans (by simp)
  · exact ⟨fun _ other => absurd rfl other,fun _ => rfl⟩

def returned : Table := ⟨[([⟨[0x61,cr],true⟩],.lf)],none⟩

def Filled (rows : List (List Text)) : Prop := ∀ row ∈ rows, ∃ cell ∈ row, trim cell ≠ []

theorem pushRow_filled {s : Scan} (filled : Filled s.rows) : Filled s.pushRow := by
  simp only [Scan.pushRow]
  split
  · rename_i some_
    obtain ⟨cell,mem,text⟩ := any_eq_true.mp some_
    exact forall_mem_append.mpr ⟨filled,forall_mem_singleton.mpr ⟨cell,mem,of_decide_eq_true text⟩⟩
  exact filled

theorem scan_closed {s : Scan} (ran : scan s source = .ok t) (filled : Filled s.rows) (closed : t.quoted = false) :
    Filled t.rows ∧ scan s (source++[lf]) = .ok ⟨t.pushRow,[],[],false⟩ := by
  induction s,source using scan.induct with
  | case1 =>
    cases ran
    exact ⟨filled,by rw [nil_append,scan.eq_def]; simp [closed,scan,lf,quote,comma]⟩
  | case4 _ inside =>
    rw [scan.eq_def] at ran
    simp only [inside,if_true] at ran
    cases ran
    exact ⟨filled,by rw [scan.eq_def]; simp [inside,scan,lf,quote,comma]⟩
  | case6 _ _ outside some_ =>
    rw [scan.eq_def] at ran
    simp only [if_neg outside,if_true,if_pos some_] at ran
    cases ran
  | case9 _ _ outside other another ih =>
    rw [scan.eq_def] at ran ⊢
    simp only [if_neg outside,if_neg other,if_neg another,if_true,cons_append] at ran ⊢
    exact ih ran (pushRow_filled filled)
  | case2 _ inside _ ih =>
    rw [scan.eq_def] at ran ⊢
    simp only [if_pos inside,if_true,cons_append] at ran ⊢
    exact ih ran filled
  | case3 _ inside _ _ other ih =>
    rw [scan.eq_def] at ran ⊢
    simp only [if_pos inside,if_neg other,if_true,cons_append] at ran ⊢
    exact ih ran filled
  | case5 _ _ _ inside other ih =>
    rw [scan.eq_def] at ran ⊢
    simp only [if_pos inside,if_neg other,cons_append] at ran ⊢
    exact ih ran filled
  | case7 _ _ outside empty ih =>
    rw [scan.eq_def] at ran ⊢
    simp only [if_neg outside,if_neg empty,if_true,cons_append] at ran ⊢
    exact ih ran filled
  | case8 _ _ outside other ih =>
    rw [scan.eq_def] at ran ⊢
    simp only [if_neg outside,if_neg other,if_true,cons_append] at ran ⊢
    exact ih ran filled
  | case10 _ _ _ outside other another last ih =>
    rw [scan.eq_def] at ran ⊢
    simp only [if_neg outside,if_neg other,if_neg another,if_neg last,cons_append] at ran ⊢
    exact ih ran filled

-- No row without text is returned, and a last line break makes no difference.
theorem parseCsvRows_closed (parsed : parseCsvRows source = .ok rows) : Filled rows ∧ parseCsvRows (source++[lf]) = .ok rows := by
  unfold parseCsvRows at parsed ⊢
  cases ran : scan ⟨[],[],[],false⟩ source with
  | error => rw [ran] at parsed; cases parsed
  | ok s =>
    rw [ran] at parsed
    cases closed : s.quoted with
    | true => simp [closed,bind,Except.bind] at parsed
    | false =>
      obtain ⟨filled,again⟩ := scan_closed ran nofun closed
      simp only [closed,bind,Except.bind,pure,Except.pure] at parsed
      cases parsed
      exact ⟨pushRow_filled filled,by rw [again]; rfl⟩

theorem parseCsvRows_closed_example : Filled [[[0x61]]] ∧ parseCsvRows [lf,0x61,lf] = .ok [[[0x61]]] :=
  @parseCsvRows_closed [lf,0x61] _ rfl
end LedgeTopOps.CsvRows
