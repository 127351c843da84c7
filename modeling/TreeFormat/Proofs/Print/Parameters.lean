import TreeFormat.Proofs.Print.Conformance
import TreeFormat.Proofs.Print.Locality

/-!
# Parameter lists

The rule of a parameter list asks for its parts by slot paths, with a test in front of the
ones that may be missing.  `Node.parameters?` goes through the nested lists as they are and
takes what every part prints to on its own.  Both come to the same: the document is made of
these entries with commas between them, and there is none if and only if an entry is
missing (`Cursor.print_params`).
-/

namespace TreeFormat

open Doc (concat join text)

/-! ## Entries -/

/-- What a node prints to on its own. -/
def Node.doc? (node : Node) : Option Doc :=
  node.print.result.toOption

namespace Slot

/-- The entry of a child, and none if nothing is there. -/
def childDocs? : Slot → Option (List Doc)
  | absent => some []
  | node child => do return [← child.doc?]
  | _ => none

/-- The entry of an optional parameter: the name, and the default behind an equals sign. -/
def optionalDocs? : Slot → Option (List Doc)
  | list (node name :: node default :: _) => do
    return [concat [← name.doc?, text " = ", ← default.doc?]]
  | _ => none

/-- The entry of a keyword parameter: the label, and the default behind it if there is one. -/
def keywordDocs? : Slot → Option (List Doc)
  | list (node label :: node default :: _) => do
    return [concat [← label.doc?, text " ", ← default.doc?]]
  | list [node label] => do return [← label.doc?]
  | list (node label :: absent :: _) => do return [← label.doc?]
  | _ => none

/-- The entries of the elements of a list, and none if nothing is there. -/
def entries? (docs? : Slot → Option (List Doc)) : Slot → Option (List Doc)
  | absent => some []
  | list items => do return (← items.mapM docs?).flatten
  | _ => none

end Slot

namespace Node

/-- The slot at an index.  A slot that is missing is the same as an absent one. -/
def slotOrAbsent (node : Node) (index : Nat) : Slot :=
  node.slots[index]?.getD .absent

/-- The entries of a parameter list: required parameters, optional ones, the rest
parameter, required ones after it, keyword parameters, the rest of the keywords, and the
block. -/
def parameters? (node : Node) : Option (List Doc) := do
  let required ← (node.slotOrAbsent 0).entries? Slot.childDocs?
  let optional ← (node.slotOrAbsent 1).entries? Slot.optionalDocs?
  let rest ← (node.slotOrAbsent 2).childDocs?
  let post ← (node.slotOrAbsent 3).entries? Slot.childDocs?
  let keywords ← (node.slotOrAbsent 4).entries? Slot.keywordDocs?
  let keywordRest ← (node.slotOrAbsent 5).childDocs?
  let block ← (node.slotOrAbsent 6).childDocs?
  return required ++ optional ++ rest ++ post ++ keywords ++ keywordRest ++ block

end Node

/-- A child prints to a document on its own. -/
abbrev PrintsTo (child : Node) (doc : Doc) : Prop :=
  child.print.result = .ok doc

theorem doc?_eq_some_iff {node : Node} {doc : Doc} : node.doc? = some doc ↔ PrintsTo node doc := by
  rw [Node.doc?, PrintsTo]
  cases node.print.result <;> simp [Except.toOption]

/-! ## Documents of the rule as entries -/

namespace Print

open Walk (Visits)

variable {node : Node} {slot : Nat}

theorem slotAt_of_slots
    {found : Slot} (hfound : node.slots[slot]? = some found) : node.slotAt [slot] = .ok found :=
  Node.slotAt_singleton_eq_ok_iff.2 hfound

theorem has_eq_false_iff_of_slotAt
    {path : List Nat} {found : Slot} (hfound : node.slotAt path = .ok found) :
    node.has path = false ↔ found = .absent := by
  rw [Node.has, hfound]
  cases found <;> simp

/-- Nothing is there if the slot is absent or missing. -/
theorem has_eq_false_iff : node.has [slot] = false ↔ node.slotOrAbsent slot = .absent := by
  rw [Node.slotOrAbsent]
  cases hfound : node.slots[slot]? with
  | none =>
      cases hslot : node.slotAt [slot] with
      | error fault => simp [Node.has, hslot]
      | ok found =>
          rw [Node.slotAt_singleton_eq_ok_iff, hfound] at hslot
          cases hslot
  | some found =>
      exact has_eq_false_iff_of_slotAt (slotAt_of_slots hfound)

theorem slotOrAbsent_of_slotAt
    {found : Slot} (hfound : node.slotAt [slot] = .ok found) : node.slotOrAbsent slot = found := by
  rw [Node.slotAt_singleton_eq_ok_iff] at hfound
  rw [Node.slotOrAbsent, hfound, Option.getD_some]

theorem mapM_childDocs_of_visits
    {items : List Slot} {docs : List Doc} (hvisits : Visits PrintsTo items docs) :
    ∃ entries, items.mapM Slot.childDocs? = some entries ∧ entries.flatten = docs := by
  induction hvisits with
  | nil => exact ⟨[], rfl, rfl⟩
  | @node child items doc docs hdoc _ ih =>
      obtain ⟨entries, hentries, rfl⟩ := ih
      have hfirst : (Slot.node child).childDocs? = some [doc] := by
        rw [Slot.childDocs?, doc?_eq_some_iff.2 hdoc]
        rfl
      exact ⟨[doc] :: entries, by rw [List.mapM_cons, hfirst, hentries]; rfl, rfl⟩
  | absent _ ih =>
      obtain ⟨entries, hentries, rfl⟩ := ih
      exact ⟨[] :: entries, by rw [List.mapM_cons, hentries]; rfl, rfl⟩

theorem entries_of_childrenAt?
    {docs : List Doc} (hdocs : ChildrenAt? PrintsTo node [slot] docs) :
    (node.slotOrAbsent slot).entries? Slot.childDocs? = some docs := by
  rcases hdocs with ⟨-, items, hitems, hvisits⟩ | ⟨hhas, rfl⟩
  · obtain ⟨entries, hentries, rfl⟩ := mapM_childDocs_of_visits hvisits
    rw [slotOrAbsent_of_slotAt (Node.listAt_eq_ok_iff.1 hitems), Slot.entries?, hentries]
    rfl
  · rw [has_eq_false_iff.1 hhas]
    rfl

theorem entry_of_childAt?
    {doc : Option Doc} (hdoc : ChildAt? PrintsTo node [slot] doc) :
    (node.slotOrAbsent slot).childDocs? = some doc.toList := by
  cases doc with
  | none =>
      rw [has_eq_false_iff.1 hdoc]
      rfl
  | some doc =>
      obtain ⟨-, child, hchild, hprints⟩ := hdoc
      rw [slotOrAbsent_of_slotAt (Node.childAt_eq_ok_iff.1 hchild), Slot.childDocs?,
        doc?_eq_some_iff.2 hprints]
      rfl

/-- Documents at all indices of a list are the entries of its elements. -/
theorem mapM_of_indices
    {param : Nat → Doc → Prop} {docs? : Slot → Option (List Doc)} {items : List Slot}
    {index : Nat} {docs : List Doc}
    (hentry : ∀ offset item doc, items[offset]? = some item → param (index + offset) doc →
      docs? item = some [doc])
    (hdocs : List.Forall₂ param (List.range' index items.length) docs) :
    items.mapM docs? = some (docs.map ([·])) := by
  induction items generalizing index docs with
  | nil =>
      cases hdocs
      rfl
  | cons item items ih =>
      rw [List.length_cons, List.range'_succ] at hdocs
      cases hdocs with
      | cons hdoc hdocs =>
          have hrest := ih (fun offset found doc hfound hparam => hentry (offset + 1) found doc
            hfound (by rwa [Nat.add_comm offset, ← Nat.add_assoc])) hdocs
          rw [List.mapM_cons, hentry 0 item _ rfl hdoc, hrest]
          rfl

/-- The parameters of a list that may be left out, each found at its index. -/
theorem entries_of_indices
    {param : Nat → Doc → Prop} {docs? : Slot → Option (List Doc)} {docs : List Doc}
    (hslot : ∀ found ∈ node.slots[slot]?, found.IsOptionalList fun _ => True)
    (hentry : ∀ index item doc, node.slotAt [slot, index] = .ok item → param index doc →
      docs? item = some [doc])
    (hdocs : List.Forall₂ param (List.range' 0 (node.listLength [slot])) docs) :
    (node.slotOrAbsent slot).entries? docs? = some docs := by
  have hempty : node.listLength [slot] = 0 → docs = [] := by
    intro hlength
    rw [hlength] at hdocs
    cases hdocs
    rfl
  cases hfound : node.slotAt [slot] with
  | error fault =>
      have hhas : node.has [slot] = false := by rw [Node.has, hfound]
      rw [hempty (by rw [Node.listLength, hfound]), has_eq_false_iff.1 hhas]
      rfl
  | ok found =>
      rw [slotOrAbsent_of_slotAt hfound]
      cases hslot found (Node.slotAt_singleton_eq_ok_iff.1 hfound) with
      | absent =>
          rw [hempty (by rw [Node.listLength, hfound])]
          rfl
      | @list items _ =>
          have hlength : node.listLength [slot] = items.length := by
            rw [Node.listLength, hfound]
          rw [hlength] at hdocs
          have hentries : items.mapM docs? = some (docs.map ([·])) := by
            refine mapM_of_indices ?_ hdocs
            intro index item doc hitem hparam
            rw [Nat.zero_add] at hparam
            have hat : node.slotAt ([slot] ++ [index]) = .ok item :=
              Node.slotAt_concat_eq_ok_iff.2 ⟨items, hfound, hitem⟩
            exact hentry index item doc hat hparam
          have hflatten : (docs.map ([·])).flatten = docs := by
            rw [← List.flatMap_def]
            exact List.flatMap_singleton' docs
          rw [Slot.entries?, hentries]
          exact congrArg some hflatten

/-- The children at the first two indices of an element. -/
theorem slotAt_element
    {index place : Nat} {item found : Slot} (hitem : node.slotAt [slot, index] = .ok item)
    (hfound : node.slotAt [slot, index, place] = .ok found) :
    ∃ inner, item = .list inner ∧ inner[place]? = some found := by
  obtain ⟨inner, hinner, hplace⟩ :=
    (@Node.slotAt_concat_eq_ok_iff node [slot, index] place found).1 hfound
  rw [hitem] at hinner
  exact ⟨inner, Except.ok.inj hinner, hplace⟩

theorem entry_of_optionalParam
    {index : Nat} {item : Slot} {doc : Doc} (hitem : node.slotAt [1, index] = .ok item)
    (hparam : OptionalParam PrintsTo node index doc) : item.optionalDocs? = some [doc] := by
  obtain ⟨⟨name, hname, hnameDoc⟩, ⟨default, hdefault, hdefaultDoc⟩⟩ := hparam
  obtain ⟨inner, rfl, hfirst⟩ := slotAt_element hitem (Node.childAt_eq_ok_iff.1 hname)
  obtain ⟨_, hsame, hsecond⟩ := slotAt_element hitem (Node.childAt_eq_ok_iff.1 hdefault)
  cases hsame
  match inner, hfirst, hsecond with
  | _ :: _ :: _, rfl, rfl =>
      rw [Slot.optionalDocs?, doc?_eq_some_iff.2 hnameDoc, doc?_eq_some_iff.2 hdefaultDoc]
      rfl

theorem entry_of_keywordParam
    {index : Nat} {item : Slot} {doc : Doc} (hitem : node.slotAt [4, index] = .ok item)
    (hparam : KeywordParam PrintsTo node index doc) : item.keywordDocs? = some [doc] := by
  cases hparam with
  | required hlabel hdefault =>
      obtain ⟨label, hlabel, hlabelDoc⟩ := hlabel
      obtain ⟨inner, rfl, hfirst⟩ := slotAt_element hitem (Node.childAt_eq_ok_iff.1 hlabel)
      have hlabelEntry : label.doc? = some _ := doc?_eq_some_iff.2 hlabelDoc
      match inner, hfirst with
      | [_], rfl =>
          rw [Slot.keywordDocs?, hlabelEntry]
          rfl
      | _ :: second :: _, rfl =>
          have hsecond := (@Node.slotAt_concat_eq_ok_iff node [4, index] 1 second).2
            ⟨_, hitem, rfl⟩
          rw [(has_eq_false_iff_of_slotAt hsecond).1 hdefault, Slot.keywordDocs?, hlabelEntry]
          rfl
  | optional hlabel hdefault =>
      obtain ⟨label, hlabel, hlabelDoc⟩ := hlabel
      obtain ⟨-, default, hdefault, hdefaultDoc⟩ := hdefault
      obtain ⟨inner, rfl, hfirst⟩ := slotAt_element hitem (Node.childAt_eq_ok_iff.1 hlabel)
      obtain ⟨_, hsame, hsecond⟩ := slotAt_element hitem (Node.childAt_eq_ok_iff.1 hdefault)
      cases hsame
      match inner, hfirst, hsecond with
      | _ :: _ :: _, rfl, rfl =>
          rw [Slot.keywordDocs?, doc?_eq_some_iff.2 hlabelDoc, doc?_eq_some_iff.2 hdefaultDoc]
          rfl

/-- The document of a parameter list has the entries of its groups. -/
theorem parameters?_of_makes
    {doc : Doc} (hoptional : ∀ found ∈ node.slots[1]?, found.IsOptionalList fun _ => True)
    (hkeywords : ∀ found ∈ node.slots[4]?, found.IsOptionalList fun _ => True)
    (hmakes : Makes PrintsTo node .params doc) :
    ∃ entries, node.parameters? = some entries ∧ doc = join (text ", ") entries := by
  cases hmakes with
  | params hrequired hoptionalDocs hrest hpost hkeywordDocs hkeywordRest hblock =>
      have hoptionalEntries :=
        entries_of_indices hoptional (fun _ _ _ => entry_of_optionalParam) hoptionalDocs
      have hkeywordEntries :=
        entries_of_indices hkeywords (fun _ _ _ => entry_of_keywordParam) hkeywordDocs
      refine ⟨_, ?_, rfl⟩
      rw [Node.parameters?, entries_of_childrenAt? hrequired, hoptionalEntries,
        entry_of_childAt? hrest, entries_of_childrenAt? hpost, hkeywordEntries,
        entry_of_childAt? hkeywordRest, entry_of_childAt? hblock]
      rfl

/-! ## Entries as contents of slots -/

/-- A child that prints. -/
def Printable (child : Node) : Prop :=
  child.print.result.isOk = true

theorem printable_of_doc? {child : Node} {doc : Doc} (hdoc : child.doc? = some doc) :
    Printable child := by
  rw [doc?_eq_some_iff] at hdoc
  rw [Printable, hdoc]
  rfl

theorem isOptional_of_childDocs?
    {found : Slot} {docs : List Doc} (hentry : found.childDocs? = some docs) :
    found.IsOptional Printable := by
  unfold Slot.childDocs? at hentry
  split at hentry
  · exact .absent
  · simp only [Option.bind_eq_bind, Option.bind_eq_some_iff] at hentry
    obtain ⟨doc, hdoc, -⟩ := hentry
    exact .node (printable_of_doc? hdoc)
  · cases hentry

theorem isPair_of_optionalDocs?
    {found : Slot} {docs : List Doc} (hentry : found.optionalDocs? = some docs) :
    found.IsPair Printable := by
  unfold Slot.optionalDocs? at hentry
  split at hentry
  · simp only [Option.bind_eq_bind, Option.bind_eq_some_iff] at hentry
    obtain ⟨name, hname, default, hdefault, -⟩ := hentry
    exact .list (printable_of_doc? hname) (printable_of_doc? hdefault)
  · cases hentry

theorem isKeyword_of_keywordDocs?
    {found : Slot} {docs : List Doc} (hentry : found.keywordDocs? = some docs) :
    found.IsKeyword Printable := by
  unfold Slot.keywordDocs? at hentry
  simp only [Option.bind_eq_bind] at hentry
  split at hentry
  · simp only [Option.bind_eq_some_iff] at hentry
    obtain ⟨label, hlabel, default, hdefault, -⟩ := hentry
    refine .list (printable_of_doc? hlabel) ?_
    rintro slot ⟨⟩
    exact .node (printable_of_doc? hdefault)
  · simp only [Option.bind_eq_some_iff] at hentry
    obtain ⟨label, hlabel, -⟩ := hentry
    refine .list (printable_of_doc? hlabel) ?_
    rintro slot ⟨⟩
  · simp only [Option.bind_eq_some_iff] at hentry
    obtain ⟨label, hlabel, -⟩ := hentry
    refine .list (printable_of_doc? hlabel) ?_
    rintro slot ⟨⟩
    exact .absent
  · cases hentry

theorem exists_entry_of_mapM
    {docs? : Slot → Option (List Doc)} {items : List Slot} {entries : List (List Doc)}
    (hentries : items.mapM docs? = some entries) {item : Slot} (hitem : item ∈ items) :
    ∃ docs, docs? item = some docs := by
  induction items generalizing entries with
  | nil => cases hitem
  | cons first items ih =>
      rw [List.mapM_cons] at hentries
      simp only [Option.bind_eq_bind, Option.bind_eq_some_iff] at hentries
      obtain ⟨docs, hdocs, rest, hrest, -⟩ := hentries
      rcases List.mem_cons.1 hitem with rfl | hitem
      · exact ⟨docs, hdocs⟩
      · exact ih hrest hitem

theorem isOptionalList_of_entries?
    {docs? : Slot → Option (List Doc)} {good : Slot → Prop} {found : Slot} {docs : List Doc}
    (hgood : ∀ item docs, docs? item = some docs → good item)
    (hentries : found.entries? docs? = some docs) : found.IsOptionalList good := by
  unfold Slot.entries? at hentries
  split at hentries
  · exact .absent
  · next items =>
      simp only [Option.bind_eq_bind, Option.bind_eq_some_iff] at hentries
      obtain ⟨entries, hentries, -⟩ := hentries
      refine .list fun item hitem => ?_
      obtain ⟨docs, hdocs⟩ := exists_entry_of_mapM hentries hitem
      exact hgood item docs hdocs
  · cases hentries

theorem childIn_of_entry
    {docs : List Doc} (hentry : (node.slotOrAbsent slot).childDocs? = some docs) :
    ∀ found ∈ node.slots[slot]?, found.IsOptional Printable := by
  intro found hfound
  rw [Node.slotOrAbsent, hfound, Option.getD_some] at hentry
  exact isOptional_of_childDocs? hentry

theorem listIn_of_entries
    {docs? : Slot → Option (List Doc)} {good : Slot → Prop} {docs : List Doc}
    (hgood : ∀ item docs, docs? item = some docs → good item)
    (hentries : (node.slotOrAbsent slot).entries? docs? = some docs) :
    ∀ found ∈ node.slots[slot]?, found.IsOptionalList good := by
  intro found hfound
  rw [Node.slotOrAbsent, hfound, Option.getD_some] at hentries
  exact isOptionalList_of_entries? hgood hentries

/-- A parameter list that has all its entries has what its rule asks for. -/
theorem secures_of_parameters?
    {entries : List Doc} (hentries : node.parameters? = some entries) :
    Node.Secures Printable node (node.readPathsAs .params) (node.fitsAs .params) := by
  simp only [Node.parameters?, Option.bind_eq_bind, Option.bind_eq_some_iff] at hentries
  obtain ⟨_, hrequired, _, hoptional, _, hrest, _, hpost, _, hkeywords, _, hkeywordRest, _,
    hblock, -⟩ := hentries
  apply Node.Secures.parameters
  · exact listIn_of_entries (fun _ _ => isOptional_of_childDocs?) hrequired
  · exact listIn_of_entries (fun _ _ => isPair_of_optionalDocs?) hoptional
  · exact childIn_of_entry hrest
  · exact listIn_of_entries (fun _ _ => isOptional_of_childDocs?) hpost
  · exact listIn_of_entries (fun _ _ => isKeyword_of_keywordDocs?) hkeywords
  · exact childIn_of_entry hkeywordRest
  · exact childIn_of_entry hblock

theorem printable_of_parameters?
    {entries : List Doc} (hkind : node.kind = .parser .params)
    (hentries : node.parameters? = some entries) : Printable node := by
  have hsecures := secures_of_parameters? hentries
  rw [Printable, Node.print_isOk_iff_children]
  constructor
  · rw [Node.fits, hkind]
    exact hsecures.fits
  · intro path hpath child hchild
    rw [Node.readPaths, hkind] at hpath
    exact hsecures.good path hpath child hchild

end Print

/-! ## Parameter lists at any place -/

namespace Cursor

/-- A node has the same document wherever it stands. -/
theorem print_eq_ok_iff {cursor : Cursor} {doc : Doc} :
    cursor.print.result = .ok doc ↔ PrintsTo cursor.node doc := by
  obtain ⟨course, hgoes, -⟩ := cursor.node.exists_course
  have hroot : Print.Goes (ofRoot cursor.node).node course := hgoes
  rw [PrintsTo, Node.print, (print_of_goes hgoes).1, (print_of_goes hroot).1]
  cases course.ending <;> simp [Except.mapError]

/-- A parameter list has a document if and only if it has all its entries, and the document
is made of these with commas between them. -/
theorem print_params
    {cursor : Cursor} (hkind : cursor.node.kind = .parser .params)
    (hoptional : ∀ slot ∈ cursor.node.slots[1]?, slot.IsOptionalList fun _ => True)
    (hkeywords : ∀ slot ∈ cursor.node.slots[4]?, slot.IsOptionalList fun _ => True) (doc : Doc) :
    cursor.print.result = .ok doc ↔
      ∃ entries, cursor.node.parameters? = some entries ∧ doc = join (text ", ") entries := by
  rw [print_eq_ok_iff]
  constructor
  · intro hdoc
    exact Print.parameters?_of_makes hoptional hkeywords (Node.makes_of_print hkind hdoc)
  · rintro ⟨entries, hentries, rfl⟩
    have hprintable := Print.printable_of_parameters? hkind hentries
    cases hresult : cursor.node.print.result with
    | error fault => simp [Print.Printable, hresult, Except.isOk, Except.toBool] at hprintable
    | ok doc =>
        obtain ⟨entries', hentries', rfl⟩ :=
          Print.parameters?_of_makes hoptional hkeywords (Node.makes_of_print hkind hresult)
        rw [hentries] at hentries'
        cases hentries'
        exact hresult

/-- A list with parameters of every sort, at the second slot of a method.  One element of
the required parameters is absent, and one keyword has no default. -/
theorem print_params_every_sort :
    let leaf (name : String) : Slot := .node (.leaf (.scanner .ident) name)
    let node : Node := .branch (.parser .params) [
      .list [leaf "a", .absent, leaf "b"],
      .list [.list [leaf "c", leaf "1"]],
      .node (.branch (.parser .restParam) [leaf "d"]),
      .list [leaf "e"],
      .list [.list [leaf "f:"], .list [leaf "g:", leaf "2"], .list [leaf "h:", .absent]],
      .absent,
      .node (.branch (.parser .blockArg) [leaf "i"])]
    let root : Node := .branch (.parser .methodDef) [leaf "m", .node node]
    let cursor := (ofRoot root).descend node [1]
    let entries := [text "a", text "b", concat [text "c", text " = ", text "1"],
      text "*" ++ text "d", text "e", text "f:", concat [text "g:", text " ", text "2"],
      text "h:", text "&" ++ text "i"]
    cursor.node.kind = .parser .params ∧
      (∀ slot ∈ cursor.node.slots[1]?, slot.IsOptionalList fun _ => True) ∧
      (∀ slot ∈ cursor.node.slots[4]?, slot.IsOptionalList fun _ => True) ∧
      cursor.node.parameters? = some entries ∧
      cursor.print.result = .ok (join (text ", ") entries) := by
  intro leaf node root cursor entries
  have hoptional : ∀ slot ∈ cursor.node.slots[1]?, slot.IsOptionalList fun _ => True := by
    rintro slot ⟨⟩
    exact .list fun _ _ => trivial
  have hkeywords : ∀ slot ∈ cursor.node.slots[4]?, slot.IsOptionalList fun _ => True := by
    rintro slot ⟨⟩
    exact .list fun _ _ => trivial
  have hentries : cursor.node.parameters? = some entries := by decide +kernel
  have hprint := print_params rfl hoptional hkeywords (join (text ", ") entries)
  exact ⟨rfl, hoptional, hkeywords, hentries, hprint.2 ⟨entries, hentries, rfl⟩⟩

end Cursor

end TreeFormat
