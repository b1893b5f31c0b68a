import LiveQuery.Proofs.Success
import LiveQuery.Toml.Decode

/-!
# What holds of the values in a document

A property that texts have, and every value that a word spells, is one of all values without parts
in a document that is read (`all_of_readDocument`). Each reader, and each step of putting tables
together, keeps it. Integers so have 64 bits (`fits_of_readDocument`).
-/

namespace LiveQuery.Toml

/-- All values without parts in a value have a property. -/
inductive Node.All (p : Scalar → Prop) : Node → Prop
  | scalar {value : Scalar} {span : Span} (h : p value) : All p (.scalar value span)
  | array {items : List Node} {span : Span} (h : ∀ v ∈ items, All p v) : All p (.array items span)
  | table {origin : Origin} {entries : List (Key × Node)} {span : Option Span}
      (h : ∀ e ∈ entries, All p e.2) : All p (.table origin entries span)
  | tables {items : List (List (Key × Node) × Span)} (h : ∀ item ∈ items, ∀ e ∈ item.1, All p e.2) :
    All p (.tables items)

/-- All values without parts in entries have a property. -/
def Entries.All (p : Scalar → Prop) (es : Entries) : Prop := ∀ e ∈ es, e.2.All p

/-- All values without parts in a line have a property. -/
inductive Line.All (p : Scalar → Prop) : Line → Prop
  | empty : All p .empty
  | assignment {a : Assignment} (h : a.value.All p) : All p (.assignment a)
  | header {h : Header} : All p (.header h)

variable {p : Scalar → Prop}

/-! ## Putting tables together -/

/-- What does something to the last item of a list keeps the others. -/
theorem onLast_eq_ok {α : Type} {f : α → Except Nat α} {place : Nat} {as bs : List α}
    (h : onLast f place as = .ok bs) :
    ∃ front a b, as = front ++ [a] ∧ bs = front ++ [b] ∧ f a = .ok b := by
  induction as generalizing bs with
  | nil => cases h
  | cons a as ih =>
    cases as with
    | nil =>
      obtain ⟨b, hb, rfl⟩ := bind_pure_eq_ok.mp h
      exact ⟨[], a, b, rfl, rfl, hb⟩
    | cons a' as =>
      obtain ⟨bs', hbs', rfl⟩ := bind_pure_eq_ok.mp h
      obtain ⟨front, c, d, hfront, rfl, hd⟩ := ih hbs'
      exact ⟨a :: front, c, d, by rw [hfront]; rfl, rfl, hd⟩

namespace Entries

theorem All.append_singleton {es : Entries} {v : Node} (hes : es.All p) (hv : v.All p) (key : Key) :
    Entries.All p (es ++ [(key, v)]) := by
  intro e he
  rcases List.mem_append.mp he with he | he
  · exact hes e he
  · rw [List.mem_singleton.mp he]
    exact hv

theorem All.replace {es : Entries} {v : Node} (hes : es.All p) (hv : v.All p) (name : String) :
    (es.replace name v).All p := by
  intro e he
  obtain ⟨e', he', rfl⟩ := List.mem_map.mp he
  split
  · exact hv
  · exact hes e' he'

theorem All.find? {es : Entries} {v : Node} {name : String} (hes : es.All p)
    (h : es.find? name = some v) : v.All p := by
  obtain ⟨e, he, rfl⟩ := Option.map_eq_some_iff.mp h
  exact hes e (List.mem_of_find?_eq_some he)

/-- What becomes of entries when something is done to the table at one of their keys. -/
inductive Into (below : Entries → Entries → Prop) (key : Key) (es : Entries) : Entries → Prop
  | new {origin : Origin} {inner : Entries} (h : below [] inner) :
    Into below key es (es ++ [(key, .table origin inner none)])
  | table {origin : Origin} {inner inner' : Entries} {span : Option Span}
      (hfind : es.find? key.name = some (.table origin inner span)) (h : below inner inner') :
    Into below key es (es.replace key.name (.table origin inner' span))
  | last {front : List (Entries × Span)} {inner inner' : Entries} {span : Span}
      (hfind : es.find? key.name = some (.tables (front ++ [(inner, span)])))
      (h : below inner inner') :
    Into below key es (es.replace key.name (.tables (front ++ [(inner', span)])))

theorem Into.all {below : Entries → Entries → Prop} {key : Key} {es es' : Entries}
    (h : Into below key es es') (hbelow : ∀ a b, a.All p → below a b → b.All p) (hes : es.All p) :
    es'.All p := by
  cases h with
  | new h =>
    have hinner := hbelow _ _ (fun e he => absurd he List.not_mem_nil) h
    exact hes.append_singleton (.table hinner) key
  | table hfind h =>
    cases hes.find? hfind with
    | table hinner => exact hes.replace (.table (hbelow _ _ hinner h)) _
  | last hfind h =>
    cases hes.find? hfind with
    | tables hitems =>
      refine hes.replace (.tables fun item hitem => ?_) _
      rcases List.mem_append.mp hitem with hitem | hitem
      · exact hitems item (List.mem_append_left _ hitem)
      · rw [List.mem_singleton.mp hitem]
        exact hbelow _ _ (hitems _ (List.mem_append_right _ (List.mem_singleton_self _))) h

/-- What is done to the last table of an array keeps its place, and the other tables. -/
theorem exists_of_onLast {f : Entries → Except Nat Entries} {place : Nat}
    {items items' : List (Entries × Span)}
    (h : onLast (fun item => return (← f item.1, item.2)) place items = .ok items') :
    ∃ front inner inner' span, items = front ++ [(inner, span)] ∧
      items' = front ++ [(inner', span)] ∧ f inner = .ok inner' := by
  obtain ⟨front, ⟨inner, span⟩, b, hitems, hitems', hb⟩ := onLast_eq_ok h
  obtain ⟨inner', hinner, rfl⟩ := bind_pure_eq_ok.mp hb
  exact ⟨front, inner, inner', span, hitems, hitems', hinner⟩

theorem into_of_assign {place : Nat} {key k : Key} {v : Node} {way : List Key} {es es' : Entries}
    (h : es.assign place key v (k :: way) = .ok es') :
    Into (fun a b => a.assign place key v way = .ok b) k es es' := by
  simp only [assign] at h
  split at h
  · obtain ⟨inner, hinner, rfl⟩ := bind_pure_eq_ok.mp h
    exact .new hinner
  · rename_i hfind
    obtain ⟨-, -, h⟩ := bind_eq_ok.mp h
    obtain ⟨inner, hinner, rfl⟩ := bind_pure_eq_ok.mp h
    exact .table hfind hinner
  · rename_i hfind
    obtain ⟨-, -, h⟩ := bind_eq_ok.mp h
    obtain ⟨items, hitems, rfl⟩ := bind_pure_eq_ok.mp h
    obtain ⟨front, inner, inner', span, rfl, rfl, hinner⟩ := exists_of_onLast hitems
    exact .last hfind hinner
  · cases h

theorem into_of_descend {place : Nat} {f : Entries → Except Nat Entries} {k : Key}
    {way : List Key} {es es' : Entries} (h : descend place f (k :: way) es = .ok es') :
    Into (fun a b => descend place f way a = .ok b) k es es' := by
  simp only [descend] at h
  split at h
  · obtain ⟨inner, hinner, rfl⟩ := bind_pure_eq_ok.mp h
    exact .new hinner
  · rename_i hfind
    obtain ⟨-, -, h⟩ := bind_eq_ok.mp h
    obtain ⟨inner, hinner, rfl⟩ := bind_pure_eq_ok.mp h
    exact .table hfind hinner
  · rename_i hfind
    obtain ⟨items, hitems, rfl⟩ := bind_pure_eq_ok.mp h
    obtain ⟨front, inner, inner', span, rfl, rfl, hinner⟩ := exists_of_onLast hitems
    exact .last hfind hinner
  · cases h

theorem All.add {place : Nat} {key : Key} {v : Node} {es es' : Entries} (hes : es.All p)
    (hv : v.All p) (h : es.add place key v = .ok es') : es'.All p := by
  rw [Entries.add] at h
  split at h
  · cases h
    exact hes.append_singleton hv key
  · cases h

theorem All.assign {place : Nat} {key : Key} {v : Node} {way : List Key} {es es' : Entries}
    (hes : es.All p) (hv : v.All p) (h : es.assign place key v way = .ok es') : es'.All p := by
  induction way generalizing es es' with
  | nil => exact hes.add hv h
  | cons k way ih => exact (into_of_assign h).all (fun _ _ ha hab => ih ha hab) hes

theorem All.assignAll {as : List Assignment} {es es' : Entries} (hes : es.All p)
    (has : ∀ a ∈ as, a.value.All p) (h : es.assignAll as = .ok es') : es'.All p :=
  foldlM_induct (fun a ha _ _ hes h => hes.assign (has a ha) h) hes h

theorem All.nil : Entries.All p [] := fun _ he => absurd he List.not_mem_nil

theorem All.descend {place : Nat} {f : Entries → Except Nat Entries} {way : List Key}
    {es es' : Entries} (hf : ∀ a b : Entries, a.All p → f a = .ok b → b.All p) (hes : es.All p)
    (h : es.descend place f way = .ok es') : es'.All p := by
  induction way generalizing es es' with
  | nil => exact hf _ _ hes h
  | cons k way ih => exact (into_of_descend h).all (fun _ _ ha hab => ih ha hab) hes

theorem All.erase {es : Entries} (hes : es.All p) (name : String) : (es.erase name).All p :=
  fun e he => hes e ((List.mem_filter.mp he).1)

theorem All.addTable {s : Section} {es es' : Entries} (hes : es.All p)
    (hs : ∀ a ∈ s.assignments, a.value.All p) (h : es.addTable s = .ok es') : es'.All p := by
  simp only [Entries.addTable] at h
  split at h
  · obtain ⟨inner, hinner, rfl⟩ := bind_pure_eq_ok.mp h
    exact hes.append_singleton (.table (All.nil.assignAll hs hinner)) _
  · rename_i hfind
    obtain ⟨inner, hinner, rfl⟩ := bind_pure_eq_ok.mp h
    cases hes.find? hfind with
    | table hold => exact (hes.erase _).append_singleton (.table (All.assignAll hold hs hinner)) _
  · cases h

theorem All.addToArray {s : Section} {es es' : Entries} (hes : es.All p)
    (hs : ∀ a ∈ s.assignments, a.value.All p) (h : es.addToArray s = .ok es') : es'.All p := by
  simp only [Entries.addToArray] at h
  split at h
  · obtain ⟨inner, hinner, rfl⟩ := bind_pure_eq_ok.mp h
    refine hes.append_singleton (.tables fun item hitem => ?_) _
    rw [List.mem_singleton.mp hitem]
    exact All.nil.assignAll hs hinner
  · rename_i hfind
    obtain ⟨inner, hinner, rfl⟩ := bind_pure_eq_ok.mp h
    cases hes.find? hfind with
    | tables hitems =>
      refine hes.replace (.tables fun item hitem => ?_) _
      rcases List.mem_append.mp hitem with hitem | hitem
      · exact hitems item hitem
      · rw [List.mem_singleton.mp hitem]
        exact All.nil.assignAll hs hinner
  · cases h

theorem All.addSection {s : Section} {es es' : Entries} (hes : es.All p)
    (hs : ∀ a ∈ s.assignments, a.value.All p) (h : es.addSection s = .ok es') : es'.All p := by
  refine hes.descend (fun a b ha hab => ?_) h
  split at hab
  · exact ha.addToArray hs hab
  · exact ha.addTable hs hab

theorem all_of_ofSections {front : List Assignment} {sections : List Section} {es : Entries}
    (hfront : ∀ a ∈ front, a.value.All p)
    (hsections : ∀ s ∈ sections, ∀ a ∈ s.assignments, a.value.All p)
    (h : ofSections front sections = .ok es) : es.All p := by
  obtain ⟨start, hstart, hrest⟩ := bind_eq_ok.mp h
  have hall : start.All p := All.nil.assignAll hfront hstart
  exact foldlM_induct (fun s hs _ _ hes h => hes.addSection (hsections s hs) h) hall hrest

end Entries

/-! ## Readers -/

/-- What a reader gives has a property. -/
def Gives {α : Type} (r : Reader α) (q : α → Prop) : Prop :=
  ∀ cs a rest, r cs = .ok (a, rest) → q a

theorem gives_readItems {item : Reader Node} (hitem : Gives item (Node.All p)) (n : Nat) :
    Gives (readItems item n) fun items => ∀ v ∈ items, v.All p := by
  induction n with
  | zero =>
    intro cs items rest h
    cases h
  | succ n ih =>
    intro cs items rest h
    rw [readItems] at h
    split at h
    · cases h
      exact fun v hv => absurd hv List.not_mem_nil
    · obtain ⟨⟨v, more⟩, hv, h⟩ := bind_eq_ok.mp h
      have hall := hitem _ _ _ hv
      dsimp only at h
      split at h
      · obtain ⟨⟨items', more'⟩, hitems, h⟩ := bind_eq_ok.mp h
        cases h
        exact List.forall_mem_cons.mpr ⟨hall, ih _ _ _ hitems⟩
      · cases h
        exact List.forall_mem_singleton.mpr hall
      · cases h

theorem gives_readAssignment {value : Reader Node} (hvalue : Gives value (Node.All p)) :
    Gives (readAssignment value) fun a => a.value.All p := by
  intro cs a rest h
  obtain ⟨⟨⟨way, key⟩, more⟩, -, h⟩ := bind_eq_ok.mp h
  obtain ⟨⟨⟨⟩, more⟩, -, h⟩ := bind_eq_ok.mp h
  obtain ⟨⟨v, more⟩, hv, h⟩ := bind_eq_ok.mp h
  cases h
  exact hvalue _ _ _ hv

theorem gives_readFields {value : Reader Node} (hvalue : Gives value (Node.All p)) (n : Nat) :
    Gives (readFields value n) fun as => ∀ a ∈ as, a.value.All p := by
  induction n with
  | zero =>
    intro cs as rest h
    cases h
  | succ n ih =>
    intro cs as rest h
    rw [readFields] at h
    obtain ⟨⟨a, more⟩, ha, h⟩ := bind_eq_ok.mp h
    have hall := gives_readAssignment hvalue _ _ _ ha
    dsimp only at h
    split at h
    · obtain ⟨⟨as', more'⟩, has, h⟩ := bind_eq_ok.mp h
      cases h
      exact List.forall_mem_cons.mpr ⟨hall, ih _ _ _ has⟩
    · cases h
      exact List.forall_mem_singleton.mpr hall
    · cases h

theorem all_of_readHeader {start : Nat} {repeated : Bool} {cs rest : List Char} {line : Line}
    (h : readHeader start repeated cs = .ok (line, rest)) : line.All p := by
  obtain ⟨⟨⟨way, key⟩, more⟩, -, h⟩ := bind_eq_ok.mp h
  obtain ⟨⟨⟨⟩, more⟩, -, h⟩ := bind_eq_ok.mp h
  dsimp only at h
  split at h
  all_goals
    obtain ⟨⟨⟨⟩, more⟩, -, h⟩ := bind_eq_ok.mp h
    obtain ⟨⟨⟨⟩, more⟩, -, h⟩ := bind_eq_ok.mp h
    cases h
    exact .header

theorem all_of_gather {lines : List Line} (h : ∀ line ∈ lines, line.All p) :
    (∀ a ∈ (gather lines).1, a.value.All p) ∧
      ∀ s ∈ (gather lines).2, ∀ a ∈ s.assignments, a.value.All p := by
  induction lines with
  | nil => exact ⟨fun a ha => absurd ha List.not_mem_nil, fun s hs => absurd hs List.not_mem_nil⟩
  | cons line lines ih =>
    obtain ⟨hline, hlines⟩ := List.forall_mem_cons.mp h
    obtain ⟨hfront, hsections⟩ := ih hlines
    cases hline with
    | empty => exact ⟨hfront, hsections⟩
    | assignment ha => exact ⟨List.forall_mem_cons.mpr ⟨ha, hfront⟩, hsections⟩
    | header =>
      exact ⟨fun a ha => absurd ha List.not_mem_nil, List.forall_mem_cons.mpr ⟨hfront, hsections⟩⟩

section
variable (hstring : ∀ s, p (.string s)) (hword : ∀ cs s, Scalar.ofWord? cs = some s → p s)
include hstring hword

theorem gives_readScalar : Gives readScalar (Node.All p) := by
  intro cs v rest h
  rw [readScalar] at h
  split at h
  · obtain ⟨⟨text, more⟩, -, h⟩ := bind_eq_ok.mp h
    cases h
    exact .scalar (hstring _)
  · obtain ⟨⟨s, more⟩, hread, h⟩ := bind_eq_ok.mp h
    cases h
    simp only [readWord] at hread
    split at hread
    · rename_i hs
      cases hread
      exact .scalar (hword _ _ hs)
    · cases hread

theorem gives_readValue (depth : Nat) : Gives (readValue depth) (Node.All p) := by
  induction depth with
  | zero => exact gives_readScalar hstring hword
  | succ depth ih =>
    intro cs v rest h
    unfold readValue at h
    split at h
    · obtain ⟨⟨items, more⟩, hitems, h⟩ := bind_eq_ok.mp h
      cases h
      exact .array (gives_readItems ih _ _ _ _ hitems)
    · split at h
      · cases h
        exact .table Entries.All.nil
      · obtain ⟨⟨fields, more⟩, hfields, h⟩ := bind_eq_ok.mp h
        obtain ⟨entries, hentries, h⟩ := bind_eq_ok.mp h
        cases h
        exact .table (Entries.All.nil.assignAll (gives_readFields ih _ _ _ _ hfields) hentries)
    · exact gives_readScalar hstring hword _ _ _ h

theorem gives_readLine : Gives readLine (Line.All p) := by
  intro cs line rest h
  unfold readLine at h
  split at h
  · exact all_of_readHeader h
  · exact all_of_readHeader h
  · split at h
    · obtain ⟨⟨⟨⟩, more⟩, -, h⟩ := bind_eq_ok.mp h
      cases h
      exact .empty
    · obtain ⟨⟨a, more⟩, ha, h⟩ := bind_eq_ok.mp h
      obtain ⟨⟨⟨⟩, more⟩, -, h⟩ := bind_eq_ok.mp h
      cases h
      exact .assignment (gives_readAssignment (gives_readValue hstring hword maxDepth) _ _ _ ha)

theorem all_of_readLines {n : Nat} {cs : List Char} {lines : List Line}
    (h : readLines n cs = .ok lines) : ∀ line ∈ lines, line.All p := by
  induction n generalizing cs lines with
  | zero =>
    cases cs with
    | nil =>
      cases h
      exact fun line hline => absurd hline List.not_mem_nil
    | cons c cs => cases h
  | succ n ih =>
    cases cs with
    | nil =>
      cases h
      exact fun line hline => absurd hline List.not_mem_nil
    | cons c cs =>
      obtain ⟨⟨line, rest⟩, hline, h⟩ := bind_eq_ok.mp h
      obtain ⟨lines', hlines, rfl⟩ := bind_pure_eq_ok.mp h
      exact List.forall_mem_cons.mpr ⟨gives_readLine hstring hword _ _ _ hline, ih hlines⟩

/-- A property of texts, and of what words spell, holds of every value without parts in a document.
-/
theorem all_of_readDocument {cs : List Char} {es : Entries} (h : readDocument cs = .ok es) :
    es.All p := by
  obtain ⟨lines, hlines, h⟩ := bind_eq_ok.mp h
  obtain ⟨hfront, hsections⟩ := all_of_gather (all_of_readLines hstring hword hlines)
  exact Entries.all_of_ofSections hfront hsections h

end

/-! ## Decoders -/

theorem Node.all_of_entries? {near : Span} {v : Node} (hstring : ∀ s, p (.string s))
    (hv : v.All p) {entries : List (String × Span × Node)} (h : v.entries? near = some entries) :
    ∀ e ∈ entries, e.2.2.All p := by
  unfold entries? at h
  split at h
  · cases h
    cases hv with
    | table hentries =>
      intro e he
      obtain ⟨e', he', rfl⟩ := List.mem_map.mp he
      exact hentries e' he'
  · cases h
    exact List.forall_mem_singleton.mpr (.scalar (hstring _))
  · cases h

theorem Node.all_of_items? {v : Node} (hv : v.All p) {items : List Node}
    (h : v.items? = some items) : ∀ item ∈ items, item.All p := by
  cases hv with
  | scalar => cases h
  | array hitems =>
    cases h
    exact hitems
  | table => cases h
  | tables hitems =>
    cases h
    intro item hitem
    obtain ⟨item', hitem', rfl⟩ := List.mem_map.mp hitem
    exact .table (hitems item' hitem')

/-- A field keeps a property of its record, whatever value with the other property it is given. -/
def KeepsAll {σ : Type} (p : Scalar → Prop) (q : σ → Prop)
    (field : Span → Node → σ → Except Error σ) : Prop :=
  ∀ near (v : Node) s s', v.All p → q s → field near v s = .ok s' → q s'

section
variable {σ : Type} {q : σ → Prop} {near : Span} {s s' : σ}

theorem Node.takeItems_induct {fields : List (Span → Node → σ → Except Error σ)} {items : List Node}
    (hfields : ∀ f ∈ fields, KeepsAll p q f) (hitems : ∀ v ∈ items, v.All p) (hs : q s)
    (h : takeItems near fields items s = .ok s') : q s' := by
  induction fields generalizing items s with
  | nil =>
    cases h
    exact hs
  | cons field fields ih =>
    cases items with
    | nil =>
      cases h
      exact hs
    | cons v items =>
      obtain ⟨hfield, hfields⟩ := List.forall_mem_cons.mp hfields
      obtain ⟨hv, hitems⟩ := List.forall_mem_cons.mp hitems
      obtain ⟨next, hnext, h⟩ := bind_eq_ok.mp h
      exact ih hfields hitems (hfield _ v s next hv hs hnext) h

/-- What holds of a record by default, and still after each of its fields is given, holds of it. -/
theorem Node.record_induct {name : String}
    {fields : List (String × (Span → Node → σ → Except Error σ))} {v : Node}
    (hstring : ∀ s, p (.string s)) (hv : v.All p) (hfields : ∀ f ∈ fields, KeepsAll p q f.2)
    (hs : q s) (h : v.record name fields s near = .ok s') : q s' := by
  simp only [record] at h
  split at h
  -- A table has fields by their names, an array by their order.
  · rename_i hentries
    refine foldlM_induct (fun e he a b ha hab => ?_) hs h
    split at hab
    · rename_i field hfield
      obtain ⟨before, after, rfl, -⟩ := List.lookup_eq_some_iff.mp hfield
      have hmem : (e.1, field) ∈ before ++ (e.1, field) :: after :=
        List.mem_append_right _ (List.mem_cons_self ..)
      exact hfields _ hmem _ _ a b (all_of_entries? hstring hv hentries e he) ha hab
    · cases hab
      exact ha
  · rename_i hitems
    exact takeItems_induct (List.forall_mem_map.mpr hfields) (all_of_items? hv hitems) hs h
  · cases h

end

/-! ## Integers -/

/-- An integer has 64 bits. -/
def Scalar.Fits : Scalar → Prop
  | .integer n => -0x8000000000000000 ≤ n ∧ n ≤ 0x7FFFFFFFFFFFFFFF
  | _ => True

theorem fits_of_inRange {n m : Int} (h : inRange n = some m) : (Scalar.integer m).Fits := by
  rw [inRange] at h
  split at h
  · rename_i hrange
    cases h
    exact hrange
  · cases h

theorem fits_of_integerIn {base : Nat} {cs : List Char} {n : Int} (h : integerIn base cs = some n) :
    (Scalar.integer n).Fits := by
  obtain ⟨⟨digits, rest⟩, -, h⟩ := Option.bind_eq_some_iff.mp h
  cases rest with
  | nil => exact fits_of_inRange h
  | cons => cases h

theorem fits_of_integerOf? {cs : List Char} {n : Int} (h : integerOf? cs = some n) :
    (Scalar.integer n).Fits := by
  unfold integerOf? at h
  split at h
  · exact fits_of_integerIn h
  · exact fits_of_integerIn h
  · exact fits_of_integerIn h
  · obtain ⟨⟨digits, rest⟩, -, h⟩ := Option.bind_eq_some_iff.mp h
    cases rest with
    | nil => exact fits_of_inRange h
    | cons => cases h

theorem fits_of_ofWord? (cs : List Char) (s : Scalar) (h : Scalar.ofWord? cs = some s) :
    s.Fits := by
  cases s with
  | integer n =>
    rw [Scalar.ofWord?] at h
    split at h
    · cases h
    · split at h
      · cases h
      · split at h
        · rename_i hn
          cases h
          exact fits_of_integerOf? hn
        · split at h
          · cases h
          · obtain ⟨d, -, hd⟩ := Option.map_eq_some_iff.mp h
            cases hd
  | string => trivial
  | real => trivial
  | boolean => trivial
  | datetime => trivial

/-- Integers in a document have 64 bits. -/
theorem fits_of_readDocument {cs : List Char} {es : Entries} (h : readDocument cs = .ok es) :
    es.All Scalar.Fits :=
  all_of_readDocument (fun _ => trivial) fits_of_ofWord? h

theorem natural_le_of_fits {near : Span} {v : Node} {n : Nat} (hv : v.All Scalar.Fits)
    (h : v.natural near = .ok n) : n ≤ 0x7FFFFFFFFFFFFFFF := by
  unfold Node.natural at h
  split at h
  · split at h
    · cases h
      cases hv with
      | scalar hfits => exact Int.toNat_le.mpr hfits.2
    · cases h
  · cases h

end LiveQuery.Toml
