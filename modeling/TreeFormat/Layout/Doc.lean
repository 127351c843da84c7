/-!
# Layout documents

A document is what a node prints to: texts, places where a line may or must
break, groups that are laid out on one line if they fit, and changes of the
indentation.  Documents are built by the functions below and compared by
structure.
-/

namespace TreeFormat

/-- A layout document. -/
inductive Doc where
  | nil
  | text (content : String)
  | concat (parts : List Doc)
  /-- A space where the enclosing group fits on the line, and a line break
  otherwise. -/
  | line
  /-- A line break. -/
  | hardLine
  /-- A line break after which the line starts at the column of the nearest
  enclosing root. -/
  | literalLine
  | group (inner : Doc)
  /-- One level more of indentation. -/
  | indent (inner : Doc)
  /-- One level less of indentation. -/
  | dedent (inner : Doc)
  /-- A number of columns more of indentation. -/
  | align (columns : Nat) (inner : Doc)
  /-- Makes the indentation in effect the one that a literal line returns to. -/
  | root (inner : Doc)

namespace Doc

instance : Inhabited Doc := ⟨nil⟩

/-- Whether a document is the empty one. -/
def isNil : Doc → Bool
  | nil => true
  | _ => false

/-- One document after another.  A concatenation takes the second one in as its
last part. -/
def append : Doc → Doc → Doc
  | nil, other => other
  | concat parts, other => concat (parts ++ [other])
  | doc, other => concat [doc, other]

instance : Append Doc := ⟨append⟩

/-- Documents with a separator between them. -/
def join (separator : Doc) (docs : List Doc) : Doc :=
  concat (docs.intersperse separator)

/-! ## Equality -/

mutual

/-- Whether two documents are built alike. -/
def same : Doc → Doc → Bool
  | .nil, .nil => true
  | .text content, .text content' => decide (content = content')
  | .concat parts, .concat parts' => sameAll parts parts'
  | .line, .line => true
  | .hardLine, .hardLine => true
  | .literalLine, .literalLine => true
  | .group inner, .group inner' => inner.same inner'
  | .indent inner, .indent inner' => inner.same inner'
  | .dedent inner, .dedent inner' => inner.same inner'
  | .align columns inner, .align columns' inner' => decide (columns = columns') && inner.same inner'
  | .root inner, .root inner' => inner.same inner'
  | _, _ => false

/-- Whether two lists of documents are built alike, position by position. -/
def sameAll : List Doc → List Doc → Bool
  | [], [] => true
  | doc :: docs, doc' :: docs' => doc.same doc' && sameAll docs docs'
  | _, _ => false

end

mutual

theorem eq_of_same : ∀ {a b : Doc}, a.same b = true → a = b
  | .nil, b, h => by cases b <;> simp_all [same]
  | .text _, b, h => by cases b <;> simp_all [same]
  | .line, b, h => by cases b <;> simp_all [same]
  | .hardLine, b, h => by cases b <;> simp_all [same]
  | .literalLine, b, h => by cases b <;> simp_all [same]
  | .concat parts, b, h => by
    cases b with
    | concat parts' => rw [same] at h; rw [eq_of_sameAll h]
    | _ => simp [same] at h
  | .group inner, b, h => by
    cases b with
    | group inner' => rw [same] at h; rw [eq_of_same h]
    | _ => simp [same] at h
  | .indent inner, b, h => by
    cases b with
    | indent inner' => rw [same] at h; rw [eq_of_same h]
    | _ => simp [same] at h
  | .dedent inner, b, h => by
    cases b with
    | dedent inner' => rw [same] at h; rw [eq_of_same h]
    | _ => simp [same] at h
  | .align columns inner, b, h => by
    cases b with
    | align columns' inner' =>
      rw [same, Bool.and_eq_true, decide_eq_true_eq] at h
      rw [h.1, eq_of_same h.2]
    | _ => simp [same] at h
  | .root inner, b, h => by
    cases b with
    | root inner' => rw [same] at h; rw [eq_of_same h]
    | _ => simp [same] at h

theorem eq_of_sameAll : ∀ {a b : List Doc}, sameAll a b = true → a = b
  | [], [], _ => rfl
  | _ :: _, _ :: _, h => by
    rw [sameAll, Bool.and_eq_true] at h
    rw [eq_of_same h.1, eq_of_sameAll h.2]
  | [], _ :: _, h => by simp [sameAll] at h
  | _ :: _, [], h => by simp [sameAll] at h

end

mutual

theorem same_self : ∀ a : Doc, a.same a = true
  | .nil | .line | .hardLine | .literalLine => rfl
  | .text _ => by simp [same]
  | .concat parts => by rw [same]; exact sameAll_self parts
  | .group inner => by rw [same]; exact same_self inner
  | .indent inner => by rw [same]; exact same_self inner
  | .dedent inner => by rw [same]; exact same_self inner
  | .align _ inner => by simp [same, same_self inner]
  | .root inner => by rw [same]; exact same_self inner

theorem sameAll_self : ∀ a : List Doc, sameAll a a = true
  | [] => rfl
  | doc :: docs => by rw [sameAll, same_self doc, sameAll_self docs, Bool.and_self]

end

theorem same_iff {a b : Doc} : a.same b = true ↔ a = b :=
  ⟨eq_of_same, fun h => h ▸ same_self a⟩

instance : DecidableEq Doc := fun _ _ => decidable_of_iff _ same_iff

end Doc

end TreeFormat
