import AetherEngine.Common.Json
import AetherEngine.Foundations.Decimal
import AetherEngine.Shard.QueryAgreement
import Mathlib.Data.List.MinMax

/-!
# Connectors

A connector maps JSON records onto generic documents: strings and booleans
become text fields, numbers become number fields, and nested objects are
flattened under dotted names.  The document's identity is a name space, a dash
and the record's id.

What a record holds is the list of its leaves, each with the path of keys that
leads to it.
-/

namespace AetherEngine.Shard

open AetherEngine.Common
open AetherEngine.Doubles
open AetherEngine.Tables

variable {real : Type}

/-! ## The mapping -/

/-- The name of a field below a name; an empty name is no name. -/
def fieldKey (start key : String) : String :=
  if start.isEmpty then key else start ++ "." ++ key

/-- The position of a `coordinates` array, which gives longitude first. -/
def setCoordinates (floats : FloatRules real) (items : List (Json real))
    (doc : FlightDocument real) : FlightDocument real :=
  match items.filterMap (Json.asF64 floats) with
  | longitude :: latitude :: _ =>
      { doc with longitude := longitude, latitude := latitude }
  | _ => doc

mutual

/-- Flatten the fields of an object below a name into a document. -/
def flattenInto (floats : FloatRules real) (start : String) :
    List (String × Json real) → FlightDocument real → FlightDocument real
  | [], doc => doc
  | (k, value) :: rest, doc =>
      flattenInto floats start rest
        (flattenValue floats (fieldKey start k) k value doc)

/-- Take in one field, of a key and its full name. -/
def flattenValue (floats : FloatRules real) (key k : String) :
    Json real → FlightDocument real → FlightDocument real
  | .string value, doc => { doc with text := doc.text.insert key value }
  | .number value, doc =>
      { doc with number := doc.number.insert key (value.asF64 floats) }
  | .bool value, doc =>
      { doc with text := doc.text.insert key (toString value) }
  | .object inner, doc => flattenInto floats key inner doc
  | .array items, doc =>
      if k = "coordinates" then setCoordinates floats items doc else doc
  | .null, doc => doc

end

/-- The record's id: a string as it is, another value as it prints, and the
position of a record without one. -/
def idText (print : Json real → String) (record : Json real)
    (idField : String) (idx : Nat) : String :=
  match record.get idField with
  | some (.string value) => value
  | some other => print other
  | none => toString idx

/-- Map one record onto a generic document. -/
def recordToDoc (floats : FloatRules real) (print : Json real → String)
    (record : Json real) (idField idPrefix : String) (idx : Nat) :
    FlightDocument real :=
  let doc : FlightDocument real :=
    { defaultDocument floats with
      icao24 := idPrefix ++ "-" ++ idText print record idField idx }
  match record.asObject with
  | some fields => flattenInto floats "" fields doc
  | none => doc

/-- Follow the path to the records. -/
def navigate : Json real → List String → Option (Json real)
  | value, [] => some value
  | value, segment :: rest => do
      let next ← value.get segment
      navigate next rest

/-- The records of an array, or a single object. -/
def recordsOf : Json real → List (Json real)
  | .array items => items
  | .object fields => [.object fields]
  | _ => []

/-- Map the records of a response onto documents. -/
def jsonToDocs (floats : FloatRules real) (print : Json real → String)
    (value : Json real) (idField idPrefix : String)
    (recordsPath : List String) : List (FlightDocument real) :=
  match navigate value recordsPath with
  | some found =>
      (recordsOf found).mapIdx
        (fun idx record => recordToDoc floats print record idField idPrefix idx)
  | none => []

/-- The name space of an object in a bucket. -/
def s3Prefix (key : String) : String :=
  "s3:" ++ key

/-- The documents of the objects of a bucket; one that is not JSON is
skipped. -/
def s3Docs (floats : FloatRules real) (print : Json real → String)
    (idField : String) (objects : List (String × Option (Json real))) :
    List (FlightDocument real) :=
  objects.flatMap (fun object =>
    match object.2 with
    | some value =>
        jsonToDocs floats print value idField (s3Prefix object.1) []
    | none => [])

/-! ## Leaves -/

/-- What a leaf becomes. -/
inductive Leaf (real : Type) where
  | text (value : String)
  | number (value : real)
deriving DecidableEq, Repr

mutual

/-- The leaves of a value, with the path of keys to each. -/
def leavesOf (floats : FloatRules real) :
    Json real → List (List String × Leaf real)
  | .string value => [([], .text value)]
  | .bool value => [([], .text (toString value))]
  | .number value => [([], .number (value.asF64 floats))]
  | .object fields => leavesIn floats fields
  | .array _ => []
  | .null => []

/-- The leaves of the fields of an object. -/
def leavesIn (floats : FloatRules real) :
    List (String × Json real) → List (List String × Leaf real)
  | [] => []
  | (key, value) :: rest =>
      (leavesOf floats value).map (fun leaf => (key :: leaf.1, leaf.2)) ++
        leavesIn floats rest

end

def Leaf.asText : Leaf real → Option String
  | text value => some value
  | number _ => none

def Leaf.asNumber : Leaf real → Option real
  | text _ => none
  | number value => some value

/-- The leaves of one kind, with their paths. -/
def leavesAs {α : Type} (kind : Leaf real → Option α)
    (leaves : List (List String × Leaf real)) : List (List String × α) :=
  leaves.filterMap (fun leaf => (kind leaf.2).map (fun value => (leaf.1, value)))

mutual

/-- The positions a value under a key gives, in the order they are set. -/
def positionsOf (floats : FloatRules real) (k : String) :
    Json real → List (real × real)
  | .object inner => positionsIn floats inner
  | .array items =>
      if k = "coordinates" then
        match items.filterMap (Json.asF64 floats) with
        | longitude :: latitude :: _ => [(longitude, latitude)]
        | _ => []
      else
        []
  | .string _ => []
  | .bool _ => []
  | .number _ => []
  | .null => []

def positionsIn (floats : FloatRules real) :
    List (String × Json real) → List (real × real)
  | [] => []
  | (k, value) :: rest => positionsOf floats k value ++ positionsIn floats rest

end

/-- The keys of a path, joined with dots. -/
def dotted : List String → String
  | [] => ""
  | [key] => key
  | key :: rest => key ++ "." ++ dotted rest

/-- The name a leaf is stored under, below a name. -/
def storedKey (start : String) (path : List String) : String :=
  path.foldl fieldKey start

/-- Write leaves into a table, each under the name of its path. -/
def insertLeaves {α : Type} (start : String)
    (leaves : List (List String × α)) (table : Std.ExtTreeMap String α) :
    Std.ExtTreeMap String α :=
  leaves.foldl
    (fun table leaf => table.insert (storedKey start leaf.1) leaf.2) table

/-- Leaves below a key are those of its value, stored below its name. -/
theorem insertLeaves_map_cons {α : Type} (kind : Leaf real → Option α)
    (start k : String) (leaves : List (List String × Leaf real))
    (table : Std.ExtTreeMap String α) :
    insertLeaves start
        (leavesAs kind (leaves.map (fun leaf => (k :: leaf.1, leaf.2)))) table =
      insertLeaves (fieldKey start k) (leavesAs kind leaves) table := by
  induction leaves generalizing table with
  | nil =>
      rfl
  | cons leaf rest inductionHypothesis =>
      simp only [leavesAs, List.map_cons, List.filterMap_cons]
        at inductionHypothesis ⊢
      cases kind leaf.2 with
      | none =>
          exact inductionHypothesis table
      | some value =>
          exact inductionHypothesis _

private theorem insertLeaves_append {α : Type} (kind : Leaf real → Option α)
    (start : String) (leaves more : List (List String × Leaf real))
    (table : Std.ExtTreeMap String α) :
    insertLeaves start (leavesAs kind (leaves ++ more)) table =
      insertLeaves start (leavesAs kind more)
        (insertLeaves start (leavesAs kind leaves) table) := by
  rw [leavesAs, List.filterMap_append, insertLeaves, List.foldl_append]
  rfl

/-- The document with leaves written below a name and positions set. -/
def withLeaves (start : String) (leaves : List (List String × Leaf real))
    (positions : List (real × real)) (doc : FlightDocument real) :
    FlightDocument real :=
  { doc with
    text := insertLeaves start (leavesAs Leaf.asText leaves) doc.text
    number := insertLeaves start (leavesAs Leaf.asNumber leaves) doc.number
    longitude :=
      positions.foldl (fun _ position => position.1) doc.longitude
    latitude := positions.foldl (fun _ position => position.2) doc.latitude }

mutual

/-- Flattening writes the leaves in order and sets the positions in order. -/
theorem flattenInto_eq (floats : FloatRules real) (start : String)
    (fields : List (String × Json real)) (doc : FlightDocument real) :
    flattenInto floats start fields doc =
      withLeaves start (leavesIn floats fields) (positionsIn floats fields)
        doc := by
  match fields with
  | [] =>
      rfl
  | (k, value) :: rest =>
      rw [flattenInto, flattenInto_eq floats start rest,
        flattenValue_eq floats (fieldKey start k) k value, leavesIn,
        positionsIn]
      simp only [withLeaves, insertLeaves_append, insertLeaves_map_cons,
        List.foldl_append]

theorem flattenValue_eq (floats : FloatRules real) (key k : String)
    (value : Json real) (doc : FlightDocument real) :
    flattenValue floats key k value doc =
      withLeaves key (leavesOf floats value) (positionsOf floats k value)
        doc := by
  match value with
  | .string text =>
      rfl
  | .number number =>
      rfl
  | .bool flag =>
      rfl
  | .null =>
      rfl
  | .object inner =>
      rw [flattenValue, flattenInto_eq floats key inner, leavesOf,
        positionsOf]
  | .array items =>
      rw [flattenValue, leavesOf, positionsOf]
      by_cases geo : k = "coordinates"
      · rw [if_pos geo, if_pos geo, setCoordinates]
        split
        · rfl
        · rfl
      · rw [if_neg geo, if_neg geo]
        rfl

end

/-! ## Names -/

/-- A path that begins with an empty key and goes on. -/
def belowEmpty : List String → Bool
  | key :: _ :: _ => key.isEmpty
  | _ => false

theorem dotted_cons_cons (key next : String) (rest : List String) :
    dotted (key :: next :: rest) = key ++ "." ++ dotted (next :: rest) :=
  rfl

/-- Below a name that is not empty the leaves have dotted names. -/
theorem storedKey_of_ne {start : String} (named : start ≠ "")
    (path : List String) : storedKey start path = dotted (start :: path) := by
  induction path generalizing start with
  | nil =>
      rfl
  | cons key rest inductionHypothesis =>
      have joined : fieldKey start key = start ++ "." ++ key := by
        rw [fieldKey, if_neg]
        simpa [String.isEmpty_iff] using named
      have next : start ++ "." ++ key ≠ "" := by
        simp [String.append_eq_empty_iff, named]
      rw [storedKey, List.foldl_cons, joined]
      refine (inductionHypothesis next).trans ?_
      cases rest with
      | nil =>
          rfl
      | cons second others =>
          simp only [dotted_cons_cons, String.append_assoc]

private theorem storedKey_cons_of_ne {key : String} (named : key ≠ "")
    (rest : List String) : storedKey "" (key :: rest) = dotted (key :: rest) :=
  storedKey_of_ne named rest

private theorem storedKey_cons_empty (rest : List String) :
    storedKey "" ("" :: rest) = storedKey "" rest :=
  rfl

/-- A leaf is stored under its dotted path unless the path begins with an empty
key. -/
theorem storedKey_eq_dotted {path : List String}
    (named : belowEmpty path = false) : storedKey "" path = dotted path := by
  match path with
  | [] => rfl
  | [key] => rfl
  | key :: next :: rest =>
      apply storedKey_cons_of_ne
      intro empty
      rw [belowEmpty, empty] at named
      cases named

private theorem length_storedKey_le (path : List String) :
    (storedKey "" path).length ≤ (dotted path).length := by
  induction path with
  | nil =>
      exact Nat.le_refl _
  | cons key rest inductionHypothesis =>
      by_cases empty : key = ""
      · subst empty
        rw [storedKey_cons_empty]
        cases rest with
        | nil =>
            exact Nat.le_refl _
        | cons next others =>
            refine inductionHypothesis.trans ?_
            simp [dotted_cons_cons]
      · rw [storedKey_cons_of_ne empty]

/-- Below an empty key the dots are lost. -/
theorem length_storedKey_lt {path : List String}
    (below : belowEmpty path = true) :
    (storedKey "" path).length < (dotted path).length := by
  match path with
  | key :: next :: rest =>
      have empty : key = "" := String.isEmpty_iff.mp below
      subst empty
      rw [storedKey_cons_empty]
      have short := length_storedKey_le (next :: rest)
      simp only [dotted_cons_cons, String.length_append]
      have dot : ".".length = 1 := rfl
      omega

/-! ## What flattening keeps -/

/-- Leaves that all arrive under their dotted paths are distinct there. -/
theorem nodup_dotted_of_perm {α : Type} {leaves : List (List String × α)}
    (arrived : (insertLeaves "" leaves ∅).toList.Perm
      (leaves.map (fun leaf => (dotted leaf.1, leaf.2)))) :
    (leaves.map (fun leaf => dotted leaf.1)).Nodup := by
  have keys := (arrived.map Prod.fst).nodup_iff.mp (nodup_keys _)
  rwa [List.map_map] at keys

private theorem not_belowEmpty_of_perm {α : Type}
    {leaves : List (List String × α)}
    (arrived : (insertLeaves "" leaves ∅).toList.Perm
      (leaves.map (fun leaf => (dotted leaf.1, leaf.2)))) :
    ∀ leaf ∈ leaves, belowEmpty leaf.1 = false := by
  have once := nodup_dotted_of_perm arrived
  by_contra someBelow
  -- among the leaves below an empty key, take one with the longest path
  let below := leaves.filter (fun leaf => belowEmpty leaf.1)
  have nonempty : below ≠ [] := by
    intro none
    apply someBelow
    intro leaf member
    exact Bool.eq_false_iff.mpr (List.filter_eq_nil_iff.mp none leaf member)
  obtain ⟨worst, longest⟩ := Option.ne_none_iff_exists'.mp
    (mt (List.argmax_eq_none (f := fun leaf : List String × α =>
      (dotted leaf.1).length)).mp nonempty)
  obtain ⟨worstMember, worstBelow⟩ :=
    List.mem_filter.mp (List.argmax_mem longest)
  -- its dotted path is the stored name of some other leaf
  have present : (dotted worst.1, worst.2) ∈
      (insertLeaves "" leaves ∅).toList :=
    arrived.mem_iff.mpr (List.mem_map.mpr ⟨worst, worstMember, rfl⟩)
  rw [mem_toList, insertLeaves] at present
  obtain ⟨other, otherMember, sameKey, -⟩ :=
    exists_of_getElem?_foldl_insert present
  cases otherBelow : belowEmpty other.1 with
  | true =>
      have shorter := length_storedKey_lt otherBelow
      have bounded := List.le_of_mem_argmax
        (List.mem_filter.mpr ⟨otherMember, otherBelow⟩) longest
      rw [sameKey] at shorter
      omega
  | false =>
      rw [storedKey_eq_dotted otherBelow] at sameKey
      have same := List.inj_on_of_nodup_map once otherMember worstMember
        sameKey
      rw [same, worstBelow] at otherBelow
      cases otherBelow

/-- The leaves of one kind all arrive under their dotted paths exactly when
these are distinct and none begins with an empty key. -/
theorem insertLeaves_perm_iff {α : Type} (leaves : List (List String × α)) :
    (insertLeaves "" leaves ∅).toList.Perm
        (leaves.map (fun leaf => (dotted leaf.1, leaf.2))) ↔
      (∀ leaf ∈ leaves, belowEmpty leaf.1 = false) ∧
        (leaves.map (fun leaf => dotted leaf.1)).Nodup := by
  constructor
  · intro arrived
    exact ⟨not_belowEmpty_of_perm arrived, nodup_dotted_of_perm arrived⟩
  · intro apart
    rcases apart with ⟨named, once⟩
    have keys : leaves.map (fun leaf => storedKey "" leaf.1) =
        leaves.map (fun leaf => dotted leaf.1) := by
      apply List.map_congr_left
      intro leaf member
      exact storedKey_eq_dotted (named leaf member)
    have pairs : leaves.map (fun leaf => (storedKey "" leaf.1, leaf.2)) =
        leaves.map (fun leaf => (dotted leaf.1, leaf.2)) := by
      apply List.map_congr_left
      intro leaf member
      rw [storedKey_eq_dotted (named leaf member)]
    rw [← pairs]
    exact toList_foldl_insert_perm Prod.snd (keys ▸ once)

/-- The document holds exactly the leaves: each under its dotted path with its
own value, and none in the place of another. -/
structure KeepsLeaves (leaves : List (List String × Leaf real))
    (doc : FlightDocument real) : Prop where
  texts : doc.text.toList.Perm
    ((leavesAs Leaf.asText leaves).map (fun leaf => (dotted leaf.1, leaf.2)))
  numbers : doc.number.toList.Perm
    ((leavesAs Leaf.asNumber leaves).map (fun leaf => (dotted leaf.1, leaf.2)))

/-- No path begins with an empty key and goes on, and no two leaves of one kind
have the same dotted path. -/
structure PathsApart (leaves : List (List String × Leaf real)) : Prop where
  named : ∀ leaf ∈ leaves, belowEmpty leaf.1 = false
  texts :
    ((leavesAs Leaf.asText leaves).map (fun leaf => dotted leaf.1)).Nodup
  numbers :
    ((leavesAs Leaf.asNumber leaves).map (fun leaf => dotted leaf.1)).Nodup

theorem mem_leavesAs {α : Type} {kind : Leaf real → Option α}
    {leaves : List (List String × Leaf real)} {path : List String}
    {value : α} :
    (path, value) ∈ leavesAs kind leaves ↔
      ∃ leaf, (path, leaf) ∈ leaves ∧ kind leaf = some value := by
  rw [leavesAs, List.mem_filterMap]
  constructor
  · intro membership
    rcases membership with ⟨⟨found, leaf⟩, member, read⟩
    rw [Option.map_eq_some_iff] at read
    obtain ⟨value', valueIs, pair⟩ := read
    cases pair
    exact ⟨leaf, member, valueIs⟩
  · intro membership
    rcases membership with ⟨leaf, member, valueIs⟩
    exact ⟨(path, leaf), member, by simp [valueIs]⟩

private theorem forall_leaves_iff (leaves : List (List String × Leaf real))
    (property : List String → Prop) :
    (∀ leaf ∈ leaves, property leaf.1) ↔
      (∀ leaf ∈ leavesAs Leaf.asText leaves, property leaf.1) ∧
        ∀ leaf ∈ leavesAs Leaf.asNumber leaves, property leaf.1 := by
  constructor
  · intro all
    constructor
    · intro leaf member
      obtain ⟨source, sourceMember, -⟩ := mem_leavesAs.mp member
      exact all _ sourceMember
    · intro leaf member
      obtain ⟨source, sourceMember, -⟩ := mem_leavesAs.mp member
      exact all _ sourceMember
  · intro both leaf member
    rcases both with ⟨ofTexts, ofNumbers⟩
    rcases leaf with ⟨path, leaf⟩
    cases leaf with
    | text value =>
        exact ofTexts (path, value) (mem_leavesAs.mpr ⟨_, member, rfl⟩)
    | number value =>
        exact ofNumbers (path, value) (mem_leavesAs.mpr ⟨_, member, rfl⟩)

/-- The document of an object record, written out. -/
theorem recordToDoc_object (floats : FloatRules real)
    (print : Json real → String) (fields : List (String × Json real))
    (idField idPrefix : String) (idx : Nat) :
    recordToDoc floats print (.object fields) idField idPrefix idx =
      withLeaves "" (leavesIn floats fields) (positionsIn floats fields)
        { defaultDocument floats with
          icao24 := idPrefix ++ "-" ++
            idText print (.object fields) idField idx } :=
  flattenInto_eq ..

/-- Flattening a record loses no leaf exactly when the paths are apart. -/
theorem recordToDoc_keepsLeaves_iff (floats : FloatRules real)
    (print : Json real → String) (fields : List (String × Json real))
    (idField idPrefix : String) (idx : Nat) :
    KeepsLeaves (leavesIn floats fields)
        (recordToDoc floats print (.object fields) idField idPrefix idx) ↔
      PathsApart (leavesIn floats fields) := by
  have ofTexts := insertLeaves_perm_iff
    (leavesAs Leaf.asText (leavesIn floats fields))
  have ofNumbers := insertLeaves_perm_iff
    (leavesAs Leaf.asNumber (leavesIn floats fields))
  have named := forall_leaves_iff (leavesIn floats fields)
    (fun path => belowEmpty path = false)
  rw [recordToDoc_object]
  constructor
  · intro keeps
    obtain ⟨textsNamed, textsOnce⟩ := ofTexts.mp keeps.texts
    obtain ⟨numbersNamed, numbersOnce⟩ := ofNumbers.mp keeps.numbers
    exact ⟨named.mpr ⟨textsNamed, numbersNamed⟩, textsOnce, numbersOnce⟩
  · intro apart
    obtain ⟨textsNamed, numbersNamed⟩ := named.mp apart.named
    exact ⟨ofTexts.mpr ⟨textsNamed, apart.texts⟩,
      ofNumbers.mpr ⟨numbersNamed, apart.numbers⟩⟩

namespace Sample

/-- How ids print; those that are lists or objects do not occur. -/
def print : Json (Double Rat) → String
  | .null => "null"
  | .bool value => toString value
  | .number (.posInt value) => toString value.toNat
  | .number (.negInt value _) => toString value.toInt
  | .number (.float _) => "number"
  | .string value => "\"" ++ value ++ "\""
  | .array _ => "[]"
  | .object _ => "\x7b\x7d"

/-- A nested field and a field whose key has the dot. -/
def dottedRecord : List (String × Json (Double Rat)) :=
  [("a", .object [("b", .number (.posInt 2))]),
    ("a.b", .number (.posInt 1))]

end Sample

/-- The field with the dot in its key takes the place of the nested one. -/
theorem dotted_key_overwrites_nested :
    (["a", "b"], Leaf.number (.finite 2)) ∈
        leavesIn Sample.doubles Sample.dottedRecord ∧
      (recordToDoc Sample.doubles Sample.print (.object Sample.dottedRecord)
        "id" "http" 0).number[dotted ["a", "b"]]? = some (.finite 1) ∧
      ¬ KeepsLeaves (leavesIn Sample.doubles Sample.dottedRecord)
        (recordToDoc Sample.doubles Sample.print
          (.object Sample.dottedRecord) "id" "http" 0) := by
  have leaf : (["a", "b"], Leaf.number (.finite 2)) ∈
      leavesIn Sample.doubles Sample.dottedRecord := by
    decide +kernel
  have found : (recordToDoc Sample.doubles Sample.print
      (.object Sample.dottedRecord) "id" "http" 0).number[
        dotted ["a", "b"]]? = some (.finite 1) := by
    decide +kernel
  refine ⟨leaf, found, ?_⟩
  intro keeps
  have kept := keeps.numbers.mem_iff.mpr
    (List.mem_map.mpr ⟨_, mem_leavesAs.mpr ⟨_, leaf, rfl⟩, rfl⟩)
  rw [mem_toList, found] at kept
  have same : (1 : Rat) = 2 := Double.finite.inj (Option.some.inj kept)
  exact absurd same (by decide +kernel)

/-! ## Querying a field by its name -/

/-- A leaf whose name no other leaf of its kind has is found under it. -/
theorem getElem?_insertLeaves {α : Type} {leaves : List (List String × α)}
    {path : List String} {value : α} (member : (path, value) ∈ leaves)
    (once : leaves.countP
      (fun leaf => storedKey "" leaf.1 = storedKey "" path) = 1) :
    (insertLeaves "" leaves ∅)[storedKey "" path]? = some value := by
  rw [List.countP_eq_length_filter, List.length_eq_one_iff] at once
  obtain ⟨only, isOnly⟩ := once
  have onlyOne : ∀ leaf ∈ leaves,
      storedKey "" leaf.1 = storedKey "" path → leaf = only := by
    intro leaf leafMember same
    rw [← List.mem_singleton, ← isOnly, List.mem_filter]
    exact ⟨leafMember, decide_eq_true same⟩
  cases found : (insertLeaves "" leaves ∅)[storedKey "" path]? with
  | some stored =>
      obtain ⟨leaf, leafMember, sameKey, valueIs⟩ :=
        exists_of_getElem?_foldl_insert found
      have same := (onlyOne leaf leafMember sameKey).trans
        (onlyOne _ member rfl).symm
      rw [← valueIs, same]
  | none =>
      exact absurd found (foldl_insert_getElem?_ne_none member)

/-- The built-in columns of text of a connector's document hold nothing but its
identity. -/
def columnText (identity field : String) : String :=
  if field = "icao24" then identity else ""

/-- The built-in columns of numbers hold nothing but a position. -/
def columnNumber (floats : FloatRules real) (positions : List (real × real))
    (field : String) : real :=
  if field = "longitude" then
    positions.foldl (fun _ position => position.1) (floats.ofInt 0)
  else if field = "latitude" then
    positions.foldl (fun _ position => position.2) (floats.ofInt 0)
  else
    floats.ofInt 0

section Queries

variable (floats : FloatRules real) (text : BucketText real)

/-- The text of a field can be asked for by the field's name. -/
structure TextQueryable (doc : FlightDocument real)
    (field value : String) : Prop where
  accepted : (equalsFilter field value).validate floats = .ok ()
  passes : Filter.passes floats doc (some (equalsFilter field value)) = true
  counted : ∀ request : AggregateRequest real, request.kind = .valueCounts →
    request.field = field → bucketOf floats text request doc = some value

/-- The number of a field can be asked for by the field's name. -/
structure NumberQueryable (doc : FlightDocument real) (field : String)
    (value : real) : Prop where
  accepted : (pointFilter field value).validate floats = .ok ()
  passes : Filter.passes floats doc (some (pointFilter field value)) = true
  seen : ∃ found, floats.equal value found = true ∧
    ∀ request : AggregateRequest real, request.field = field →
      (request.kind = .numericHistogram →
        bucketOf floats text request doc =
          some (text.bucketKey found request.interval)) ∧
      (request.kind = .percentiles →
        sampleOf floats request doc = some found)

/-- A document with no built-in column set but its identity and position. -/
structure Columnless (doc : FlightDocument real) : Prop where
  callsign : doc.callsign = ""
  origin : doc.origin = ""
  destination : doc.destination = ""
  aircraftType : doc.aircraftType = ""
  tenantId : doc.tenantId = ""
  altitude : doc.altitude = floats.ofInt 0
  velocity : doc.velocity = floats.ofInt 0
  heading : doc.heading = floats.ofInt 0
  verticalRate : doc.verticalRate = floats.ofInt 0
  observedAt : doc.observedAt = 0

variable {floats text} {doc : FlightDocument real} {field : String}

private theorem textValue_generic (generic : field ∉ Filter.textFields) :
    Filter.textValue doc field = doc.text[field]?.getD "" := by
  simp only [Filter.textFields, List.mem_cons, List.not_mem_nil, or_false,
    not_or] at generic
  simp [Filter.textValue, generic]

private theorem textField_generic (generic : field ∉ Filter.textFields) :
    textField doc field = doc.text[field]? := by
  simp only [Filter.textFields, List.mem_cons, List.not_mem_nil, or_false,
    not_or] at generic
  simp [textField, generic]

private theorem numericField_generic (generic : field ∉ Filter.numericFields) :
    numericField floats doc field = doc.number[field]? := by
  simp only [Filter.numericFields, List.mem_cons, List.not_mem_nil, or_false,
    not_or] at generic
  simp [numericField, generic]

theorem Columnless.textValue (columnless : Columnless floats doc)
    (builtin : field ∈ Filter.textFields) :
    Filter.textValue doc field = columnText doc.icao24 field := by
  simp only [Filter.textFields, List.mem_cons, List.not_mem_nil, or_false]
    at builtin
  rcases builtin with rfl | rfl | rfl | rfl | rfl | rfl
  · exact columnless.callsign
  · exact columnless.origin
  · exact columnless.destination
  · exact columnless.aircraftType
  · exact columnless.tenantId
  · rfl

/-- The value counts read an empty column where the field is built in, and the
generic field where it is the identity. -/
theorem Columnless.textField (columnless : Columnless floats doc)
    (builtin : field ∈ Filter.textFields) :
    Shard.textField doc field =
      if field = "icao24" then doc.text[field]? else some "" := by
  simp only [Filter.textFields, List.mem_cons, List.not_mem_nil, or_false]
    at builtin
  rcases builtin with rfl | rfl | rfl | rfl | rfl | rfl
  · exact congrArg some columnless.callsign
  · exact congrArg some columnless.origin
  · exact congrArg some columnless.destination
  · exact congrArg some columnless.aircraftType
  · exact congrArg some columnless.tenantId
  · rfl

theorem Columnless.numericField {positions : List (real × real)}
    (columnless : Columnless floats doc)
    (longitude : doc.longitude =
      positions.foldl (fun _ position => position.1) (floats.ofInt 0))
    (latitude : doc.latitude =
      positions.foldl (fun _ position => position.2) (floats.ofInt 0))
    (builtin : field ∈ Filter.numericFields) :
    Shard.numericField floats doc field =
      some (columnNumber floats positions field) := by
  simp only [Filter.numericFields, List.mem_cons, List.not_mem_nil, or_false]
    at builtin
  rcases builtin with rfl | rfl | rfl | rfl | rfl | rfl | rfl
  · exact congrArg some columnless.altitude
  · exact congrArg some columnless.velocity
  · exact congrArg some columnless.heading
  · exact congrArg some columnless.verticalRate
  · exact congrArg some latitude
  · exact congrArg some longitude
  · exact congrArg (fun time => some (floats.ofInt time))
      columnless.observedAt

private theorem eqIgnoreAsciiCase_empty (value : String) :
    Filter.eqIgnoreAsciiCase "" value = true ↔ value = "" := by
  rw [Filter.eqIgnoreAsciiCase, decide_eq_true_eq]
  constructor
  · intro same
    exact String.toList_eq_nil_iff.mp (List.map_eq_nil_iff.mp same.symm)
  · intro empty
    rw [empty]

/-- A stored text answers to its name unless the name is that of a number or a
flag, or of a column with another text. -/
theorem textQueryable_iff (columnless : Columnless floats doc)
    {value : String} (stored : doc.text[field]? = some value) :
    TextQueryable floats text doc field value ↔
      field ∉ Filter.numericFields ∧ field ∉ Filter.boolFields ∧
        (field ∈ Filter.textFields →
          Filter.eqIgnoreAsciiCase (columnText doc.icao24 field) value =
            true) := by
  constructor
  · intro queryable
    obtain ⟨notNumber, notFlag⟩ :=
      (validate_equalsFilter ..).mp queryable.accepted
    refine ⟨notNumber, notFlag, ?_⟩
    intro builtin
    rw [← columnless.textValue builtin, ← passes_equalsFilter floats]
    exact queryable.passes
  · intro free
    rcases free with ⟨notNumber, notFlag, matching⟩
    have reads : Filter.eqIgnoreAsciiCase (Filter.textValue doc field) value =
          true ∧ Shard.textField doc field = some value := by
      by_cases builtin : field ∈ Filter.textFields
      · have matched := matching builtin
        rw [columnless.textValue builtin, columnless.textField builtin]
        refine ⟨matched, ?_⟩
        by_cases identity : field = "icao24"
        · rw [if_pos identity, stored]
        · rw [columnText, if_neg identity, eqIgnoreAsciiCase_empty] at matched
          rw [if_neg identity, matched]
      · rw [textValue_generic builtin, textField_generic builtin, stored]
        exact ⟨decide_eq_true rfl, rfl⟩
    refine ⟨(validate_equalsFilter ..).mpr ⟨notNumber, notFlag⟩, ?_, ?_⟩
    · rw [passes_equalsFilter]
      exact reads.1
    · intro request counts ofField
      rw [bucketOf, counts, ofField]
      exact reads.2

/-- A stored number answers to its name unless the name is that of a text or a
flag, or of a column with another number. -/
theorem numberQueryable_iff (lawful : floats.Lawful)
    (columnless : Columnless floats doc) {positions : List (real × real)}
    (longitude : doc.longitude =
      positions.foldl (fun _ position => position.1) (floats.ofInt 0))
    (latitude : doc.latitude =
      positions.foldl (fun _ position => position.2) (floats.ofInt 0))
    {value : real} (comparable : floats.equal value value = true)
    (stored : doc.number[field]? = some value) :
    NumberQueryable floats text doc field value ↔
      field ∉ Filter.textFields ∧ field ∉ Filter.boolFields ∧
        (field ∈ Filter.numericFields →
          floats.equal value (columnNumber floats positions field) =
            true) := by
  have column : field ∈ Filter.numericFields →
      Shard.numericField floats doc field =
        some (columnNumber floats positions field) :=
    columnless.numericField longitude latitude
  constructor
  · intro queryable
    obtain ⟨notText, notFlag⟩ :=
      (validate_pointFilter lawful ..).mp queryable.accepted
    refine ⟨notText, notFlag, ?_⟩
    intro builtin
    have passes := queryable.passes
    rwa [passes_pointFilter, numericValue_eq, column builtin] at passes
  · intro free
    rcases free with ⟨notText, notFlag, matching⟩
    obtain ⟨found, reads, same⟩ :
        ∃ found, Shard.numericField floats doc field = some found ∧
          floats.equal value found = true := by
      by_cases builtin : field ∈ Filter.numericFields
      · exact ⟨_, column builtin, matching builtin⟩
      · exact ⟨value, (numericField_generic builtin).trans stored,
          comparable⟩
    refine ⟨(validate_pointFilter lawful ..).mpr ⟨notText, notFlag⟩, ?_,
      found, same, ?_⟩
    · rw [passes_pointFilter, numericValue_eq, reads]
      exact same
    · intro request ofField
      constructor
      · intro buckets
        rw [bucketOf, buckets, ofField, reads]
        rfl
      · intro samples
        rw [sampleOf, samples, ofField]
        exact reads

end Queries

private theorem columnless_recordToDoc (floats : FloatRules real)
    (print : Json real → String) (fields : List (String × Json real))
    (idField idPrefix : String) (idx : Nat) :
    Columnless floats
      (recordToDoc floats print (.object fields) idField idPrefix idx) := by
  rw [recordToDoc_object]
  constructor <;> rfl

/-- An ingested field answers to its own name exactly when no built-in column
has that name, or the column has the kind and the value of the field. -/
theorem ingested_fields_queryable_iff {floats : FloatRules real}
    (lawful : floats.Lawful) (text : BucketText real)
    (print : Json real → String) (fields : List (String × Json real))
    (idField idPrefix : String) (idx : Nat) :
    let doc :=
      recordToDoc floats print (.object fields) idField idPrefix idx
    (∀ path value,
      (path, value) ∈ leavesAs Leaf.asText (leavesIn floats fields) →
      (leavesAs Leaf.asText (leavesIn floats fields)).countP
        (fun leaf => storedKey "" leaf.1 = storedKey "" path) = 1 →
      (TextQueryable floats text doc (storedKey "" path) value ↔
        storedKey "" path ∉ Filter.numericFields ∧
          storedKey "" path ∉ Filter.boolFields ∧
          (storedKey "" path ∈ Filter.textFields →
            Filter.eqIgnoreAsciiCase
              (columnText
                (idPrefix ++ "-" ++
                  idText print (.object fields) idField idx)
                (storedKey "" path)) value = true))) ∧
    (∀ path value,
      (path, value) ∈ leavesAs Leaf.asNumber (leavesIn floats fields) →
      (leavesAs Leaf.asNumber (leavesIn floats fields)).countP
        (fun leaf => storedKey "" leaf.1 = storedKey "" path) = 1 →
      floats.equal value value = true →
      (NumberQueryable floats text doc (storedKey "" path) value ↔
        storedKey "" path ∉ Filter.textFields ∧
          storedKey "" path ∉ Filter.boolFields ∧
          (storedKey "" path ∈ Filter.numericFields →
            floats.equal value
              (columnNumber floats (positionsIn floats fields)
                (storedKey "" path)) = true))) := by
  intro doc
  have columnless : Columnless floats doc := columnless_recordToDoc ..
  have written : doc =
      withLeaves "" (leavesIn floats fields) (positionsIn floats fields)
        { defaultDocument floats with
          icao24 := idPrefix ++ "-" ++
            idText print (.object fields) idField idx } :=
    recordToDoc_object ..
  constructor
  · intro path value member once
    have stored : doc.text[storedKey "" path]? = some value := by
      rw [written]
      exact getElem?_insertLeaves member once
    have identity : doc.icao24 =
        idPrefix ++ "-" ++ idText print (.object fields) idField idx := by
      rw [written]
      rfl
    rw [← identity]
    exact textQueryable_iff columnless stored
  · intro path value member once comparable
    have stored : doc.number[storedKey "" path]? = some value := by
      rw [written]
      exact getElem?_insertLeaves member once
    exact numberQueryable_iff lawful columnless (by rw [written]; rfl)
      (by rw [written]; rfl) comparable stored

namespace Sample

def eventRecord : List (String × Json (Double Rat)) :=
  [("latency", .number (.posInt 42)), ("severity", .string "high")]

def altitudeRecord : List (String × Json (Double Rat)) :=
  [("altitude", .number (.posInt 1000))]

end Sample

/-- A connector's own fields answer to their names. -/
theorem ingested_fields_queryable_event :
    TextQueryable Sample.doubles Sample.doubleTexts
        (recordToDoc Sample.doubles Sample.print (.object Sample.eventRecord)
          "id" "http" 0) "severity" "high" ∧
      NumberQueryable Sample.doubles Sample.doubleTexts
        (recordToDoc Sample.doubles Sample.print (.object Sample.eventRecord)
          "id" "http" 0) "latency" (.finite 42) := by
  have both := ingested_fields_queryable_iff Sample.doubles_lawful
    Sample.doubleTexts Sample.print Sample.eventRecord "id" "http" 0
  constructor
  · exact (both.1 ["severity"] "high" (by decide +kernel)
      (by decide +kernel)).mpr (by decide +kernel)
  · exact (both.2 ["latency"] (.finite 42) (by decide +kernel)
      (by decide +kernel) (by decide +kernel)).mpr (by decide +kernel)

/-- A number named like a built-in column is stored, its filter is accepted, and
the document does not pass. -/
theorem altitude_leaf_not_found :
    (recordToDoc Sample.doubles Sample.print (.object Sample.altitudeRecord)
        "id" "http" 0).number["altitude"]? = some (.finite 1000) ∧
      (pointFilter "altitude" (Double.finite (1000 : Rat))).validate
        Sample.doubles = .ok () ∧
      Filter.passes Sample.doubles
        (recordToDoc Sample.doubles Sample.print
          (.object Sample.altitudeRecord) "id" "http" 0)
        (some (pointFilter "altitude" (.finite 1000))) = false ∧
      numericField Sample.doubles
        (recordToDoc Sample.doubles Sample.print
          (.object Sample.altitudeRecord) "id" "http" 0) "altitude" =
        some (.finite 0) := by
  refine ⟨by decide +kernel, ?_, by decide +kernel, by decide +kernel⟩
  exact (validate_pointFilter Sample.doubles_lawful ..).mpr (by decide)

/-! ## Identities -/

/-- The records a path leads to. -/
def recordsAt (value : Json real) (recordsPath : List String) :
    List (Json real) :=
  match navigate value recordsPath with
  | some found => recordsOf found
  | none => []

/-- The ids of records, as text. -/
def idTexts (print : Json real → String) (idField : String)
    (records : List (Json real)) : List String :=
  records.mapIdx (fun idx record => idText print record idField idx)

private theorem jsonToDocs_eq (floats : FloatRules real)
    (print : Json real → String)
    (value : Json real) (idField idPrefix : String)
    (recordsPath : List String) :
    jsonToDocs floats print value idField idPrefix recordsPath =
      (recordsAt value recordsPath).mapIdx (fun idx record =>
        recordToDoc floats print record idField idPrefix idx) := by
  rw [jsonToDocs, recordsAt]
  split
  · rfl
  · rfl

private theorem icao24_recordToDoc (floats : FloatRules real)
    (print : Json real → String) (record : Json real)
    (idField idPrefix : String) (idx : Nat) :
    (recordToDoc floats print record idField idPrefix idx).icao24 =
      idPrefix ++ "-" ++ idText print record idField idx := by
  rw [recordToDoc]
  cases record.asObject with
  | none =>
      rfl
  | some fields =>
      simp only [flattenInto_eq]
      rfl

/-- A document's identity is its name space, a dash and its id. -/
theorem map_icao24_jsonToDocs (floats : FloatRules real)
    (print : Json real → String) (value : Json real)
    (idField idPrefix : String) (recordsPath : List String) :
    (jsonToDocs floats print value idField idPrefix recordsPath).map
        FlightDocument.icao24 =
      (idTexts print idField (recordsAt value recordsPath)).map
        (fun id => idPrefix ++ "-" ++ id) := by
  rw [jsonToDocs_eq, idTexts]
  apply List.ext_getElem?
  intro idx
  simp [icao24_recordToDoc, Function.comp_def]

/-- The longer key goes on from the shorter one across a dash, and the id under
the shorter one makes up for the rest. -/
def Straddles (shorter shortId longer longId : String) : Prop :=
  ∃ middle, longer = shorter ++ "-" ++ middle ∧
    shortId = middle ++ "-" ++ longId

/-- A dash inside one of two texts that end alike. -/
theorem straddles_of_append (shorter : List Char)
    {rest shortId longId : List Char}
    (same : '-' :: shortId = rest ++ '-' :: longId) (proper : rest ≠ []) :
    Straddles (String.ofList shorter) (String.ofList shortId)
      (String.ofList (shorter ++ rest)) (String.ofList longId) := by
  cases rest with
  | nil =>
      exact absurd rfl proper
  | cons first middle =>
      rw [List.cons_append, List.cons.injEq] at same
      rcases same with ⟨rfl, rfl⟩
      refine ⟨String.ofList middle, ?_, ?_⟩
      · apply String.toList_inj.mp
        simp
      · apply String.toList_inj.mp
        simp

private theorem append_dash_eq_iff {key key' : String} (different : key ≠ key')
    (id id' : String) :
    key ++ "-" ++ id = key' ++ "-" ++ id' ↔
      Straddles key id key' id' ∨ Straddles key' id' key id := by
  constructor
  · intro same
    have characters : key.toList ++ '-' :: id.toList =
        key'.toList ++ '-' :: id'.toList := by
      have both := congrArg String.toList same
      simpa using both
    rcases List.append_eq_append_iff.mp characters with
      ⟨rest, longer, tail⟩ | ⟨rest, longer, tail⟩
    · have proper : rest ≠ [] := by
        intro none
        rw [none, List.append_nil] at longer
        exact different (String.toList_inj.mp longer.symm)
      have straddles := straddles_of_append key.toList tail proper
      rw [← longer] at straddles
      simpa using Or.inl straddles
    · have proper : rest ≠ [] := by
        intro none
        rw [none, List.append_nil] at longer
        exact different (String.toList_inj.mp longer)
      have straddles := straddles_of_append key'.toList tail proper
      rw [← longer] at straddles
      simpa using Or.inr straddles
  · intro straddling
    rcases straddling with ⟨middle, rfl, rfl⟩ | ⟨middle, rfl, rfl⟩
    · simp only [String.append_assoc]
    · simp only [String.append_assoc]

/-- The objects of two keys have documents apart exactly when no id straddles
the keys. -/
theorem s3_docs_apart_iff (floats : FloatRules real)
    (print : Json real → String) (idField : String) {key key' : String}
    (different : key ≠ key') (value value' : Json real) :
    (∀ doc ∈ jsonToDocs floats print value idField (s3Prefix key) [],
      ∀ doc' ∈ jsonToDocs floats print value' idField (s3Prefix key') [],
        doc.icao24 ≠ doc'.icao24) ↔
      ∀ id ∈ idTexts print idField (recordsOf value),
        ∀ id' ∈ idTexts print idField (recordsOf value'),
          ¬ Straddles key id key' id' ∧ ¬ Straddles key' id' key id := by
  have apart : ∀ id id' : String,
      s3Prefix key ++ "-" ++ id ≠ s3Prefix key' ++ "-" ++ id' ↔
        ¬ Straddles key id key' id' ∧ ¬ Straddles key' id' key id := by
    intro id id'
    rw [← not_or, ← append_dash_eq_iff different id id', ne_eq, not_iff_not,
      s3Prefix, s3Prefix]
    simp only [String.append_assoc, String.append_right_inj]
  have identities : ∀ (key : String) (value : Json real)
      (property : String → Prop),
      (∀ doc ∈ jsonToDocs floats print value idField (s3Prefix key) [],
        property doc.icao24) ↔
      ∀ id ∈ idTexts print idField (recordsOf value),
        property (s3Prefix key ++ "-" ++ id) := by
    intro key value property
    have listed := map_icao24_jsonToDocs floats print value idField
      (s3Prefix key) []
    rw [← List.forall_mem_map, listed, List.forall_mem_map]
    rfl
  refine (identities key value (fun icao24 =>
    ∀ doc' ∈ jsonToDocs floats print value' idField (s3Prefix key') [],
      icao24 ≠ doc'.icao24)).trans ?_
  refine forall₂_congr ?_
  intro id _
  refine (identities key' value'
    (fun icao24' => s3Prefix key ++ "-" ++ id ≠ icao24')).trans ?_
  refine forall₂_congr ?_
  intro id' _
  exact apart id id'

/-- The documents of one fetch have identities apart exactly when those of
every object do and no id straddles two keys. -/
theorem nodup_s3Docs_iff (floats : FloatRules real)
    (print : Json real → String) (idField : String)
    {objects : List (String × Option (Json real))}
    (keys : (objects.map Prod.fst).Nodup) :
    ((s3Docs floats print idField objects).map FlightDocument.icao24).Nodup ↔
      (∀ key value, (key, some value) ∈ objects →
        ((jsonToDocs floats print value idField (s3Prefix key) []).map
          FlightDocument.icao24).Nodup) ∧
      ∀ key value key' value', (key, some value) ∈ objects →
        (key', some value') ∈ objects → key ≠ key' →
        ∀ id ∈ idTexts print idField (recordsOf value),
          ∀ id' ∈ idTexts print idField (recordsOf value'),
            ¬ Straddles key id key' id' ∧ ¬ Straddles key' id' key id := by
  rw [s3Docs, List.map_flatMap, List.nodup_flatMap]
  refine and_congr ?_ ?_
  · constructor
    · intro each key value member
      exact each _ member
    · intro each object member
      obtain ⟨key, read⟩ := object
      cases read with
      | none =>
          exact List.nodup_nil
      | some value =>
          exact each key value member
  · constructor
    · intro apart key value key' value' member member' different
      refine (s3_docs_apart_iff floats print idField different value
        value').mp ?_
      intro doc among doc' among' same
      have pair := @List.Pairwise.forall _ _ _
        ⟨fun _ _ disjoint => disjoint.symm⟩ apart _ member _ member'
        (fun equal => different (congrArg Prod.fst equal))
      exact pair (List.mem_map_of_mem among)
        (same ▸ List.mem_map_of_mem among')
    · intro apart
      refine keys.of_map.pairwise_of_forall_ne ?_
      intro object member object' member' unequal
      have different : object.1 ≠ object'.1 :=
        fun same => unequal (List.inj_on_of_nodup_map keys member member' same)
      obtain ⟨key, read⟩ := object
      obtain ⟨key', read'⟩ := object'
      cases read with
      | none =>
          exact List.disjoint_nil_left _
      | some value =>
          cases read' with
          | none =>
              exact List.disjoint_nil_right _
          | some value' =>
              have separate := (s3_docs_apart_iff floats print idField
                different value value').mpr
                  (apart key value key' value' member member' different)
              intro icao24 first second
              obtain ⟨doc, among, rfl⟩ := List.mem_map.mp first
              obtain ⟨doc', among', same⟩ := List.mem_map.mp second
              exact separate doc among doc' among' same.symm

/-- The text of an id that is there. -/
def textOf (print : Json real → String) (id : Json real) : String :=
  id.asStr.getD (print id)

/-- An id has the text of another record's, a different one: it is a string
that spells the other id, or it spells the position of a record without an
id. -/
def Clashes (print : Json real → String) (id : Option (Json real))
    (idx : Nat) (other : Option (Json real)) : Prop :=
  ∃ value, id = some value ∧
    ((other = none ∧ textOf print value = toString idx) ∨
      ∃ value', other = some value' ∧ value'.asStr = none ∧
        value.asStr = some (print value'))

private theorem idText_eq (print : Json real → String) (record : Json real)
    (idField : String) (idx : Nat) :
    idText print record idField idx =
      (record.get idField).elim (toString idx) (textOf print) := by
  rw [idText]
  cases record.get idField with
  | none =>
      rfl
  | some value =>
      cases value with
      | string text => rfl
      | null | bool | number | array | object => rfl

private theorem textOf_eq_iff {print : Json real → String}
    {value value' : Json real}
    (different : value ≠ value')
    (faithful : print value = print value' → value = value') :
    textOf print value = textOf print value' ↔
      (value'.asStr = none ∧ value.asStr = some (print value')) ∨
        (value.asStr = none ∧ value'.asStr = some (print value)) := by
  have strings : ∀ (value : Json real) (text : String),
      value.asStr = some text → value = .string text := by
    intro value text isText
    cases value with
    | string found => rw [Option.some.inj isText]
    | null | bool | number | array | object => cases isText
  rw [textOf, textOf]
  cases text : value.asStr with
  | some first =>
      cases text' : value'.asStr with
      | some second =>
          have apart : first ≠ second := by
            intro same
            apply different
            rw [strings value first text, strings value' second text', same]
          simp [apart]
      | none =>
          simp
  | none =>
      cases text' : value'.asStr with
      | some second =>
          simp [eq_comm]
      | none =>
          have apart : print value ≠ print value' :=
            fun same => different (faithful same)
          simp [apart]

/-- Different ids have the same text exactly when they clash. -/
theorem elim_textOf_eq_iff {print : Json real → String}
    {id id' : Option (Json real)} {idx idx' : Nat} (elsewhere : idx ≠ idx')
    (different : ∀ value value', id = some value → id' = some value' →
      value ≠ value')
    (faithful : ∀ value value', id = some value → id' = some value' →
      print value = print value' → value = value') :
    id.elim (toString idx) (textOf print) =
        id'.elim (toString idx') (textOf print) ↔
      Clashes print id idx' id' ∨ Clashes print id' idx id := by
  cases id with
  | none =>
      cases id' with
      | none =>
          have apart : toString idx ≠ toString idx' :=
            fun same => elsewhere (Decimal.toString_injective same)
          simpa [Clashes] using apart
      | some value' =>
          simp [Clashes, eq_comm]
  | some value =>
      cases id' with
      | none =>
          simp [Clashes]
      | some value' =>
          have texts := textOf_eq_iff (different value value' rfl rfl)
            (faithful value value' rfl rfl)
          simpa [Clashes] using texts

/-- Any two ids that are there are different values. -/
def DifferentIds (ids : List (Option (Json real))) : Prop :=
  ∀ (idx idx' : Nat) value value', idx ≠ idx' → ids[idx]? = some (some value) →
    ids[idx']? = some (some value') → value ≠ value'

/-- Within one response the documents are apart exactly when no two ids
clash. -/
theorem jsonToDocs_apart_iff (floats : FloatRules real)
    (print : Json real → String) (value : Json real)
    (idField idPrefix : String) (recordsPath : List String)
    (different : DifferentIds
      ((recordsAt value recordsPath).map (fun record => record.get idField)))
    (faithful : ∀ record ∈ recordsAt value recordsPath,
      ∀ record' ∈ recordsAt value recordsPath, ∀ id id',
        record.get idField = some id → record'.get idField = some id' →
        print id = print id' → id = id') :
    ((jsonToDocs floats print value idField idPrefix recordsPath).map
        FlightDocument.icao24).Nodup ↔
      ∀ (idx idx' : Nat) record record', idx ≠ idx' →
        (recordsAt value recordsPath)[idx]? = some record →
        (recordsAt value recordsPath)[idx']? = some record' →
        ¬ Clashes print (record.get idField) idx' (record'.get idField) := by
  have texts : ∀ (idx idx' : Nat) record record', idx ≠ idx' →
      (recordsAt value recordsPath)[idx]? = some record →
      (recordsAt value recordsPath)[idx']? = some record' →
      (idText print record idField idx = idText print record' idField idx' ↔
        Clashes print (record.get idField) idx' (record'.get idField) ∨
          Clashes print (record'.get idField) idx (record.get idField)) := by
    intro idx idx' record record' elsewhere found found'
    rw [idText_eq, idText_eq]
    apply elim_textOf_eq_iff elsewhere
    · intro id id' isId isId'
      apply different idx idx' id id' elsewhere
      · simp [found, isId]
      · simp [found', isId']
    · intro id id' isId isId'
      exact faithful record (List.mem_of_getElem? found) record'
        (List.mem_of_getElem? found') id id' isId isId'
  have injective : Function.Injective
      (fun id : String => idPrefix ++ "-" ++ id) :=
    fun _ _ same => String.append_right_inj _ |>.mp same
  rw [map_icao24_jsonToDocs, List.nodup_map_iff injective, idTexts]
  constructor
  · intro once idx idx' record record' elsewhere found found' clash
    have same := (texts idx idx' record record' elsewhere found found').mpr
      (Or.inl clash)
    apply elsewhere
    refine (List.getElem?_inj ?_ once).mp ?_
    · rw [List.length_mapIdx]
      exact (List.getElem?_eq_some_iff.mp found).1
    · simp [found, found', same]
  · intro clashless
    rw [List.nodup_iff_getElem?_ne_getElem?]
    intro idx idx' before inside same
    rw [List.length_mapIdx] at inside
    rw [List.getElem?_mapIdx, List.getElem?_mapIdx,
      List.getElem?_eq_getElem inside,
      List.getElem?_eq_getElem (before.trans inside), Option.map_some,
      Option.map_some, Option.some.injEq] at same
    rcases (texts idx idx' _ _ before.ne
      (List.getElem?_eq_getElem (before.trans inside))
      (List.getElem?_eq_getElem inside)).mp same with clash | clash
    · exact clashless idx idx' _ _ before.ne
        (List.getElem?_eq_getElem (before.trans inside))
        (List.getElem?_eq_getElem inside) clash
    · exact clashless idx' idx _ _ before.ne'
        (List.getElem?_eq_getElem inside)
        (List.getElem?_eq_getElem (before.trans inside)) clash

/-- Connector ids do not collide exactly when no id straddles two object keys
and, within one response, no id spells another or the position of a record
without one. -/
theorem connector_ids_apart_iff (floats : FloatRules real)
    (print : Json real → String) (idField : String) :
    (∀ (key key' : String) (value value' : Json real), key ≠ key' →
      ((∀ doc ∈ jsonToDocs floats print value idField (s3Prefix key) [],
        ∀ doc' ∈ jsonToDocs floats print value' idField (s3Prefix key') [],
          doc.icao24 ≠ doc'.icao24) ↔
        ∀ id ∈ idTexts print idField (recordsOf value),
          ∀ id' ∈ idTexts print idField (recordsOf value'),
            ¬ Straddles key id key' id' ∧ ¬ Straddles key' id' key id)) ∧
    (∀ (value : Json real) (idPrefix : String) (recordsPath : List String),
      DifferentIds ((recordsAt value recordsPath).map
        (fun record => record.get idField)) →
      (∀ record ∈ recordsAt value recordsPath,
        ∀ record' ∈ recordsAt value recordsPath, ∀ id id',
          record.get idField = some id → record'.get idField = some id' →
          print id = print id' → id = id') →
      (((jsonToDocs floats print value idField idPrefix recordsPath).map
          FlightDocument.icao24).Nodup ↔
        ∀ (idx idx' : Nat) record record', idx ≠ idx' →
          (recordsAt value recordsPath)[idx]? = some record →
          (recordsAt value recordsPath)[idx']? = some record' →
          ¬ Clashes print (record.get idField) idx'
            (record'.get idField))) := by
  constructor
  · intro key key' value value' different
    exact s3_docs_apart_iff floats print idField different value value'
  · intro value idPrefix recordsPath different faithful
    exact jsonToDocs_apart_iff floats print value idField idPrefix
      recordsPath different faithful

namespace Sample

def withId (id : Json (Double Rat)) : Json (Double Rat) :=
  .array [.object [("id", id)]]

end Sample

/-- Two objects of a bucket give the same identity, and so do a string and a
number in one response. -/
theorem connector_ids_collide :
    ((jsonToDocs Sample.doubles Sample.print (Sample.withId (.string "b-c"))
          "id" (s3Prefix "a") []).map FlightDocument.icao24 =
        ["s3:a-b-c"] ∧
      (jsonToDocs Sample.doubles Sample.print (Sample.withId (.string "c"))
          "id" (s3Prefix "a-b") []).map FlightDocument.icao24 =
        ["s3:a-b-c"]) ∧
    (jsonToDocs Sample.doubles Sample.print
        (.array [.object [("id", .string "1")],
          .object [("id", .number (.posInt 1))]])
        "id" "http" []).map FlightDocument.icao24 =
      ["http-1", "http-1"] := by
  decide +kernel

/-- Ids that do not straddle the keys keep two objects apart. -/
theorem connector_ids_apart_smallBucket :
    ((jsonToDocs Sample.doubles Sample.print (Sample.withId (.string "x")) "id"
        (s3Prefix "a") []).map FlightDocument.icao24).Disjoint
      ((jsonToDocs Sample.doubles Sample.print (Sample.withId (.string "x"))
        "id" (s3Prefix "b") []).map FlightDocument.icao24) := by
  have apart := ((connector_ids_apart_iff Sample.doubles Sample.print "id").1
    "a" "b" (Sample.withId (.string "x")) (Sample.withId (.string "x"))
    (by decide)).mpr
  intro icao24 first second
  obtain ⟨doc, among, rfl⟩ := List.mem_map.mp first
  obtain ⟨doc', among', same⟩ := List.mem_map.mp second
  refine apart ?_ doc among doc' among' same.symm
  intro id _ id' _
  constructor
  · intro straddles
    obtain ⟨middle, longer, -⟩ := straddles
    exact absurd (congrArg String.toList longer) (by simp)
  · intro straddles
    obtain ⟨middle, longer, -⟩ := straddles
    exact absurd (congrArg String.toList longer) (by simp)

end AetherEngine.Shard
