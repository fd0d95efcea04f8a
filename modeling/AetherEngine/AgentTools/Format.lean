import AetherEngine.Common.Filter
import AetherEngine.Foundations.Decimal
import AetherEngine.Foundations.Lines
import AetherEngine.Foundations.Ranking
import AetherEngine.Foundations.Tables
import Mathlib.Data.String.Basic

/-!
# What the tools print

The tools an agent calls print a reply of the coordinator as text: the hits or
the buckets, one to a line, and behind them a line that begins with
`provenance: ` and summarises the manifest.  The texts of documents and bucket
keys go into the output as they are, line breaks included.
-/

namespace AetherEngine.Common

/-- How a shard left out is named. -/
def omittedText (shard : OmittedShard) : String :=
  shard.address ++ " (" ++ shard.reason ++ ")"

/-- The difference of two signed 64-bit numbers, at most as far from zero as
such a number can be. -/
def saturatingSub (left right : Int) : Int :=
  max (-2 ^ 63) (min (2 ^ 63 - 1) (left - right))

/-- One line on a query: its coverage, what was dropped, how fresh the data is
at the time `now`, and which placement answered. -/
def manifestSummary (now : Int) (manifest : QueryManifest) : String :=
  let omitted :=
    if manifest.omitted = [] then []
    else
      ["omitted: " ++ ", ".intercalate (manifest.omitted.map omittedText)]
  let deduped :=
    if manifest.deduped = 0 then []
    else [toString manifest.deduped ++ " cross-shard duplicates dropped"]
  let freshest :=
    if 0 < manifest.freshestObservedAt then
      let age := saturatingSub now manifest.freshestObservedAt
      ["freshest " ++ toString (age.tdiv 1000) ++ "s old"]
    else []
  " · ".intercalate
    (["answered " ++ toString manifest.shardsAnswered ++ "/" ++
        toString manifest.shardsQueried ++ " shards"] ++
      omitted ++ deduped ++ freshest ++
      ["placement v" ++ toString manifest.placementVersion] ++
      [toString manifest.elapsedMs ++ "ms"])

end AetherEngine.Common

namespace AetherEngine.AgentTools

open AetherEngine.Common
open AetherEngine.Lines
open AetherEngine.Ranking
open AetherEngine.Tables

/-- The characters floating-point numbers are written with: digits, a point, a
sign, `NaN` and `inf`. -/
def numeral (character : Char) : Bool :=
  character.isDigit || ".-NaNinf".toList.contains character

/-- How floating-point numbers are written, in full and with a fixed number of
decimal places. -/
structure NumberText (real : Type) where
  display : real → String
  fixed : Nat → real → String
  display_numeral : ∀ number, ∀ character ∈ (display number).toList,
    numeral character = true
  fixed_numeral : ∀ places number, ∀ character ∈ (fixed places number).toList,
    numeral character = true

variable {real : Type} (numbers : NumberText real)

/-- The line on the whole query, behind an empty line. -/
def formatManifest (now : Int) : Option QueryManifest → String
  | some manifest => "\nprovenance: " ++ manifestSummary now manifest ++ "\n"
  | none => ""

section Hits

variable [Inhabited real]

/-- The group that returned a hit. -/
def viaOf (hit : SearchHit real) : String :=
  (hit.provenance.map HitProvenance.sourceGroup).getD "?"

/-- Which index matched a hit. -/
def howOf (hit : SearchHit real) : String :=
  match hit.provenance.map HitProvenance.index with
  | some .keyword => " keyword"
  | some .vector => " vector"
  | _ => ""

def formatHit (hit : SearchHit real) : String :=
  let doc := hit.document.getD default
  "- " ++ doc.icao24 ++ " " ++ doc.callsign ++ " (" ++ doc.origin ++ " -> " ++
    doc.destination ++ ") " ++ doc.aircraftType ++ " score=" ++
    numbers.fixed 3 hit.score ++ " [via " ++ viaOf hit ++ howOf hit ++ "]\n"

/-- The line on the coverage of a search result. -/
def formatHeader (response : SearchResponse real) : String :=
  toString response.totalMatched ++ " matched across " ++
    toString response.shardsAnswered ++ "/" ++
    toString response.shardsQueried ++ " shards\n"

/-- Print a search result. -/
def formatHits (now : Int) (response : SearchResponse real) : String :=
  formatHeader response ++
    String.join (response.hits.map (formatHit numbers)) ++
    formatManifest now response.manifest

end Hits

/-- Buckets are shown by count, the largest first, then by key. -/
def byCount : Display String UInt64 where
  le first second :=
    (cmpScoreKey (first.2.toNat, first.1) (second.2.toNat, second.1)).isLE
  trans first second third :=
    cmpScoreKey_trans (first.2.toNat, first.1) (second.2.toNat, second.1)
      (third.2.toNat, third.1)
  total first second :=
    cmpScoreKey_total (first.2.toNat, first.1) (second.2.toNat, second.1)
  separates first second forth back := by
    have same := cmpScoreKey_antisymm (first.2.toNat, first.1)
      (second.2.toNat, second.1) forth back
    exact congrArg Prod.snd same

/-- The buckets a table shows. -/
def shownBuckets (order : IterationOrder (String × UInt64))
    (buckets : Std.ExtTreeMap String UInt64) : List (String × UInt64) :=
  (sortBy byCount.le (order.arrange buckets.toList)).take 25

def formatPercentile (percentile : Percentile real) : String :=
  "p" ++ numbers.display percentile.p ++ ": " ++
    numbers.fixed 2 percentile.value ++ "\n"

def formatBucket (bucket : String × UInt64) : String :=
  bucket.1 ++ ": " ++ toString bucket.2 ++ "\n"

/-- Print the merged partials: the count, the percentiles or the buckets. -/
def formatPartial (order : IterationOrder (String × UInt64)) (kind : AggKind)
    (percentiles : List (Percentile real)) (summary : AggregatePartial real) :
    String :=
  match kind with
  | .count => "count: " ++ toString summary.count ++ "\n"
  | .percentiles => String.join (percentiles.map (formatPercentile numbers))
  | _ =>
      String.join ((shownBuckets order summary.buckets).map formatBucket) ++
        "(" ++ toString summary.count ++ " matched)\n"

/-- Print an aggregate. -/
def formatAggregate (order : IterationOrder (String × UInt64)) (now : Int)
    (kind : AggKind) (response : AggregateResponse real) : String :=
  (match response.summary with
    | some summary => formatPartial numbers order kind response.percentiles summary
    | none => "") ++
    formatManifest now response.manifest

/-! ## Lines that look like the provenance line -/

/-- What the provenance line begins with. -/
def marker : List Char :=
  "provenance: ".toList

/-- A line break with the marker behind it occurs in the text. -/
def Forges (text : List Char) : Prop :=
  '\n' :: marker <:+: text

instance (text : List Char) : Decidable (Forges text) :=
  inferInstanceAs (Decidable ('\n' :: marker <:+: text))

theorem markedLines_marker_eq_nil_iff (text : List Char) :
    markedLines marker text = [] ↔ ¬ Forges ('\n' :: text) :=
  markedLines_eq_nil_iff (by decide) (by decide) (by decide) text

private theorem not_forges_of_unbroken {text : List Char}
    (unbroken : '\n' ∉ text) :
    ¬ Forges text := fun occurs =>
  unbroken (occurs.subset List.mem_cons_self)

theorem forges_newline_cons_iff (text : List Char) :
    Forges ('\n' :: text) ↔ marker <+: text ∨ Forges text := by
  rw [Forges, List.infix_cons_iff, List.cons_prefix_cons]
  simp [Forges]

private theorem forges_cons_iff {character : Char}
    (different : character ≠ '\n')
    (text : List Char) : Forges (character :: text) ↔ Forges text := by
  rw [Forges, List.infix_cons_iff, List.cons_prefix_cons]
  simp [Forges, different.symm]

/-- A space behind a text can only be the marker's last character. -/
theorem forges_append_space_iff (first : String) (rest : List Char) :
    Forges (first.toList ++ ' ' :: rest) ↔
      Forges (first ++ " ").toList ∨ Forges rest := by
  have shape : '\n' :: marker = "\nprovenance:".toList ++ [' '] := by
    decide
  rw [String.toList_append, Forges, Forges, Forges, shape]
  exact infix_append_cons_iff_of_last (by decide)

theorem forges_append_cons_iff {character : Char}
    (foreign : character ∉ '\n' :: marker) (first rest : List Char) :
    Forges (first ++ character :: rest) ↔ Forges first ∨ Forges rest :=
  infix_append_cons_iff (by decide) foreign

private theorem unbroken_fixed (places : Nat) (number : real) :
    '\n' ∉ (numbers.fixed places number).toList := fun broken =>
  absurd (numbers.fixed_numeral places number '\n' broken) (by decide)

private theorem unbroken_display (number : real) :
    '\n' ∉ (numbers.display number).toList := fun broken =>
  absurd (numbers.display_numeral number '\n' broken) (by decide)

private theorem forges_via_iff (hit : SearchHit real) :
    Forges ((viaOf hit).toList ++ ((howOf hit).toList ++ [']', '\n'])) ↔
      Forges (if howOf hit = "" then viaOf hit else viaOf hit ++ " ").toList := by
  have tail : ¬ Forges ['\n'] := by
    decide
  by_cases unknown : howOf hit = ""
  · rw [unknown, if_pos rfl, String.toList_empty, List.nil_append,
      forges_append_cons_iff (by decide), or_iff_left tail]
  · obtain ⟨rest, shape, unbroken⟩ : ∃ rest,
        (howOf hit).toList = ' ' :: rest ∧ '\n' ∉ rest := by
      revert unknown
      unfold howOf
      split
      · exact fun _ => ⟨"keyword".toList, by decide, by decide⟩
      · exact fun _ => ⟨"vector".toList, by decide, by decide⟩
      · exact fun present => absurd rfl present
    have restForges : ¬ Forges (rest ++ [']', '\n']) := by
      rw [forges_append_cons_iff (by decide), or_iff_left tail]
      exact not_forges_of_unbroken unbroken
    rw [if_neg unknown, shape, List.cons_append, forges_append_space_iff,
      or_iff_left restForges]

section Hits

variable [Inhabited real]

/-- The texts of a hit, with the space that the line puts behind a text. -/
def hitTexts (hit : SearchHit real) : List String :=
  let doc := hit.document.getD default
  [doc.icao24 ++ " ", doc.callsign ++ " ", doc.origin ++ " ", doc.destination,
    doc.aircraftType ++ " ",
    if howOf hit = "" then viaOf hit else viaOf hit ++ " "]

private theorem toList_formatHit {hit : SearchHit real}
    {doc : FlightDocument real}
    (shown : hit.document.getD default = doc) :
    (formatHit numbers hit).toList =
      '-' :: ' ' :: (doc.icao24.toList ++ ' ' :: (doc.callsign.toList ++
        ' ' :: '(' :: (doc.origin.toList ++ ' ' :: '-' :: '>' :: ' ' ::
        (doc.destination.toList ++ ')' :: ' ' :: (doc.aircraftType.toList ++
        ' ' :: 's' :: 'c' :: 'o' :: 'r' :: 'e' :: '=' ::
        ((numbers.fixed 3 hit.score).toList ++
        ' ' :: '[' :: 'v' :: 'i' :: 'a' :: ' ' :: ((viaOf hit).toList ++
        ((howOf hit).toList ++ [']', '\n'])))))))) := by
  unfold formatHit
  rw [shown]
  simp only [String.toList_append, String.reduceToList,
    List.append_assoc, List.cons_append, List.nil_append]

/-- A printed hit has a line that looks like the provenance line when one of the
hit's texts, with the space behind it, has a line break and the marker. -/
theorem forges_formatHit_iff (hit : SearchHit real) :
    Forges ('\n' :: (formatHit numbers hit).toList) ↔
      ∃ text ∈ hitTexts hit, Forges text.toList := by
  unfold hitTexts
  rw [forges_newline_cons_iff, toList_formatHit numbers rfl]
  generalize hit.document.getD default = doc
  have start : ∀ rest : List Char, ¬ marker <+: '-' :: rest := by
    intro rest begins
    exact absurd (List.cons_prefix_cons.mp begins).1 (by decide)
  have score : ¬ Forges (numbers.fixed 3 hit.score ++ " ").toList :=
    not_forges_of_unbroken (by simp [unbroken_fixed])
  rw [or_iff_right (start _)]
  simp (disch := decide) only [forges_cons_iff, forges_append_space_iff,
    forges_append_cons_iff (by decide : ')' ∉ '\n' :: marker),
    forges_via_iff, score, false_or]
  simp

end Hits

/-! ## The other lines -/

private theorem unbroken_toDigits (number : Nat) :
    '\n' ∉ Nat.toDigits 10 number :=
  fun broken => absurd
    (Nat.isDigit_of_mem_toDigits (by decide) (by decide) broken) (by decide)

theorem unbroken_toString_uint64 (number : UInt64) :
    '\n' ∉ (toString number).toList := by
  intro broken
  have digit := @Decimal.isDigit_of_mem_toString number.toNat _ broken
  exact absurd digit (by decide)

private theorem unbroken_repr (number : Int) : '\n' ∉ number.repr.toList := by
  intro broken
  rcases Decimal.isDigit_or_minus_of_mem_toString broken with digit | minus
  · exact absurd digit (by decide)
  · exact absurd minus (by decide)

/-- A line that does not begin with the marker is not marked. -/
theorem markedLines_unmarked {line : List Char} (unbroken : '\n' ∉ line)
    (unmarked : ¬ marker <+: line) :
    markedLines marker (line ++ ['\n']) = [] := by
  have nowhere : ¬ Forges (line ++ ['\n']) := by
    rw [Forges, newline_infix_append_iff unbroken]
    decide
  rw [markedLines_marker_eq_nil_iff, forges_newline_cons_iff,
    prefix_append_cons_iff (by decide)]
  simp [unmarked, nowhere]

/-- The marker begins with its own first character only. -/
theorem not_marker_prefix_of_head? {line : List Char}
    (start : line.head? ≠ some 'p') : ¬ marker <+: line := by
  intro begins
  rcases begins with ⟨rest, rfl⟩
  exact start rfl

private theorem markedLines_count (count : UInt64) :
    markedLines marker ("count: " ++ toString count ++ "\n").toList = [] := by
  rw [String.toList_append]
  apply markedLines_unmarked
  · simp [unbroken_toString_uint64]
  · exact not_marker_prefix_of_head? (by simp)

private theorem markedLines_matched (count : UInt64) :
    markedLines marker ("(" ++ toString count ++ " matched)\n").toList = [] := by
  have shape : ("(" ++ toString count ++ " matched)\n").toList =
      ("(" ++ toString count ++ " matched)").toList ++ ['\n'] := by
    simp
  rw [shape]
  apply markedLines_unmarked
  · simp [unbroken_toString_uint64]
  · exact not_marker_prefix_of_head? (by simp)

private theorem markedLines_formatPercentile (percentile : Percentile real) :
    markedLines marker (formatPercentile numbers percentile).toList = [] := by
  rw [formatPercentile, String.toList_append]
  apply markedLines_unmarked
  · simp [unbroken_display, unbroken_fixed]
  · obtain ⟨tail, markerIs⟩ : ∃ tail, marker = 'p' :: 'r' :: tail :=
      ⟨"ovenance: ".toList, by decide⟩
    have lineIs : ("p" ++ numbers.display percentile.p ++ ": " ++
        numbers.fixed 2 percentile.value).toList =
          'p' :: ((numbers.display percentile.p).toList ++ ':' :: ' ' ::
            (numbers.fixed 2 percentile.value).toList) := by
      simp
    rw [markerIs, lineIs, List.cons_prefix_cons]
    intro split
    rcases split with ⟨-, behind, same⟩
    -- behind the letter stands a number or a colon, not the marker's next letter
    cases shape : (numbers.display percentile.p).toList with
    | nil =>
        simp [shape] at same
    | cons first more =>
        have plain := numbers.display_numeral percentile.p first
          (shape ▸ List.mem_cons_self)
        have isLetter : 'r' = first := by
          simpa [shape] using congrArg List.head? same
        rw [← isLetter] at plain
        exact absurd plain (by decide)

private theorem toList_formatHeader (response : SearchResponse real) :
    (formatHeader response).toList =
      ((toString response.totalMatched).toList ++
        (" matched across ".toList ++
          (toString response.shardsAnswered).toList ++ '/' ::
          (toString response.shardsQueried).toList ++ " shards".toList)) ++
        ['\n'] := by
  unfold formatHeader
  simp

private theorem markedLines_formatHeader (response : SearchResponse real) :
    markedLines marker (formatHeader response).toList = [] := by
  rw [toList_formatHeader]
  apply markedLines_unmarked
  · simp [unbroken_toDigits, unbroken_toString_uint64]
  · apply not_marker_prefix_of_head?
    cases digits : (toString response.totalMatched).toList with
    | nil =>
        simp
    | cons first rest =>
        have digit := @Decimal.isDigit_of_mem_toString
          response.totalMatched.toNat first (digits ▸ List.mem_cons_self)
        intro same
        rw [List.cons_append, List.head?_cons, Option.some.injEq] at same
        rw [same] at digit
        exact absurd digit (by decide)

/-- A printed bucket looks like the provenance line, or has such a line, when
its key with the colon and the space behind it does. -/
theorem markedLines_formatBucket_iff (bucket : String × UInt64) :
    markedLines marker (formatBucket bucket).toList = [] ↔
      ¬ Forges ("\n" ++ bucket.1 ++ ": ").toList := by
  have count : ¬ Forges ((toString bucket.2).toList ++ ['\n']) := by
    rw [Forges, newline_infix_append_iff (unbroken_toString_uint64 bucket.2)]
    decide
  have shape : '\n' :: (formatBucket bucket).toList =
      ("\n" ++ bucket.1 ++ ":").toList ++
        ' ' :: ((toString bucket.2).toList ++ ['\n']) := by
    simp [formatBucket]
  have key : "\n" ++ bucket.1 ++ ":" ++ " " = "\n" ++ bucket.1 ++ ": " := by
    rw [String.append_assoc]
    rfl
  rw [markedLines_marker_eq_nil_iff, shape, forges_append_space_iff,
    or_iff_left count, key]

/-! ## The provenance line itself -/

/-- No address and no reason of the manifest has a line break. -/
def ManifestUnbroken (manifest : Option QueryManifest) : Prop :=
  ∀ account ∈ manifest, ∀ shard ∈ account.omitted,
    '\n' ∉ shard.address.toList ∧ '\n' ∉ shard.reason.toList

/-- The summary of the manifest, if there is one. -/
def evidence (now : Int) (manifest : Option QueryManifest) : List String :=
  manifest.toList.map (manifestSummary now)

private theorem unbroken_manifestSummary_iff (now : Int)
    (manifest : QueryManifest) :
    '\n' ∉ (manifestSummary now manifest).toList ↔
      ∀ shard ∈ manifest.omitted,
        '\n' ∉ shard.address.toList ∧ '\n' ∉ shard.reason.toList := by
  have omittedIff : '\n' ∉ (", ".intercalate
      (manifest.omitted.map omittedText)).toList ↔
        ∀ shard ∈ manifest.omitted,
          '\n' ∉ shard.address.toList ∧ '\n' ∉ shard.reason.toList := by
    rw [String.toList_intercalate, unbroken_intercalate_iff (by decide)]
    simp [omittedText]
  have omittedPart : (∀ part ∈ (if manifest.omitted = [] then []
      else ["omitted: " ++ ", ".intercalate
        (manifest.omitted.map omittedText)]), '\n' ∉ part.toList) ↔
          ∀ shard ∈ manifest.omitted,
            '\n' ∉ shard.address.toList ∧ '\n' ∉ shard.reason.toList := by
    split_ifs with noneOmitted
    · simp [noneOmitted]
    · rw [List.forall_mem_singleton, String.toList_append, List.mem_append,
        not_or, omittedIff, and_iff_right (by decide)]
  unfold manifestSummary
  rw [String.toList_intercalate, unbroken_intercalate_iff (by decide),
    List.forall_mem_map]
  simp only [List.forall_mem_append, List.forall_mem_singleton, omittedPart]
  simp [unbroken_toDigits, unbroken_toString_uint64, unbroken_repr]

/-- The summary ends with the unit of the elapsed time. -/
theorem getLast?_manifestSummary (now : Int) (manifest : QueryManifest) :
    (manifestSummary now manifest).toList.getLast? = some 's' := by
  have ending : ∀ front number : String,
      (front ++ (number ++ "ms")).toList.getLast? = some 's' := by
    intro front number
    simp [List.getLast?_append]
  unfold manifestSummary
  rw [String.intercalate_append_of_ne_nil (by simp) (by simp),
    String.intercalate_singleton]
  exact ending _ _

private theorem toList_formatManifest (now : Int) (manifest : QueryManifest) :
    (formatManifest now (some manifest)).toList =
      '\n' :: (marker ++ (manifestSummary now manifest).toList ++ ['\n']) := by
  have begins : '\n' :: marker = "\nprovenance: ".toList := by
    decide
  unfold formatManifest
  rw [String.toList_append, String.toList_append, ← begins]
  rfl

private theorem markedLines_formatManifest (now : Int)
    (manifest : QueryManifest) :
    markedLines marker (formatManifest now (some manifest)).toList =
      markedLines marker
        (marker ++ (manifestSummary now manifest).toList ++ ['\n']) := by
  have blank : markedLines marker ['\n'] = [] := by
    decide
  rw [toList_formatManifest, ← List.singleton_append,
    markedLines_append (Or.inr rfl), blank, List.nil_append]

/-- The provenance line is found whatever the summary is. -/
theorem length_evidence_le (now : Int) (manifest : Option QueryManifest) :
    (evidence now manifest).length ≤
      (markedLines marker (formatManifest now manifest).toList).length := by
  cases manifest with
  | none =>
      simp [evidence]
  | some manifest =>
      have found : markedLines marker
          (formatManifest now (some manifest)).toList ≠ [] := by
        rw [markedLines_formatManifest, Ne, markedLines_marker_eq_nil_iff,
          not_not, forges_newline_cons_iff, List.append_assoc]
        exact Or.inl (List.prefix_append marker _)
      exact List.length_pos_iff.mpr found

/-- It is the whole summary when the manifest has no line breaks. -/
theorem markedLines_formatManifest_iff (now : Int)
    (manifest : Option QueryManifest) :
    markedLines marker (formatManifest now manifest).toList =
        (evidence now manifest).map String.toList ↔
      ManifestUnbroken manifest := by
  cases manifest with
  | none =>
      simp [formatManifest, evidence, ManifestUnbroken, markedLines]
  | some manifest =>
      simp only [ManifestUnbroken, Option.mem_some_iff, forall_eq',
        ← unbroken_manifestSummary_iff now manifest, markedLines_formatManifest,
        evidence, Option.toList_some, List.map_cons, List.map_nil]
      constructor
      · intro same
        exact unbroken_of_mem_markedLines (same ▸ List.mem_singleton.mpr rfl)
      · intro unbroken
        apply markedLines_marked (by decide) unbroken
        rw [List.getLast?_append, getLast?_manifestSummary]
        decide

/-! ## Whole outputs -/

theorem ended_toList_append (text : String) {last : String}
    (ends : last.toList.getLast? = some '\n') : Ended (text ++ last).toList :=
  Or.inr (by rw [String.toList_append, List.getLast?_append, ends]; rfl)

/-- Lines in front of the provenance line can only add to it. -/
theorem append_markedLines_eq_evidence_iff {now : Int}
    {manifest : Option QueryManifest} (before : List (List Char)) :
    before ++ markedLines marker (formatManifest now manifest).toList =
        (evidence now manifest).map String.toList ↔
      before = [] ∧ ManifestUnbroken manifest := by
  rw [← markedLines_formatManifest_iff now manifest]
  constructor
  · intro same
    have lengths := congrArg List.length same
    have enough := length_evidence_le now manifest
    rw [List.length_append, List.length_map] at lengths
    have nothing : before = [] := List.length_eq_zero_iff.mp (by omega)
    rw [nothing, List.nil_append] at same
    exact ⟨nothing, same⟩
  · intro same
    rcases same with ⟨rfl, same⟩
    exact same

section Hits

variable [Inhabited real]

/-- No text of a hit has a line that looks like the provenance line. -/
def HitsUnforged (response : SearchResponse real) : Prop :=
  ∀ hit ∈ response.hits, ∀ text ∈ hitTexts hit, ¬ Forges text.toList

private theorem ended_formatHit (hit : SearchHit real) :
    Ended (formatHit numbers hit).toList := by
  unfold formatHit
  exact ended_toList_append _ (by decide)

/-- The provenance lines found in a printed search result are the summary of
its manifest when no text of a hit forges one. -/
theorem markedLines_formatHits_iff (now : Int) (response : SearchResponse real) :
    markedLines marker (formatHits numbers now response).toList =
        (evidence now response.manifest).map String.toList ↔
      HitsUnforged response ∧ ManifestUnbroken response.manifest := by
  have header : Ended (formatHeader response).toList := by
    rw [toList_formatHeader]
    exact ended_append_newline _
  have hitsEnded : ∀ hit ∈ response.hits,
      Ended (formatHit numbers hit).toList := fun hit _ =>
    ended_formatHit numbers hit
  unfold formatHits
  rw [String.toList_append, String.toList_append, String.toList_join,
    List.flatMap_map, List.append_assoc, markedLines_append header,
    markedLines_formatHeader, List.nil_append,
    markedLines_append (Ended.flatMap hitsEnded), markedLines_flatMap hitsEnded,
    append_markedLines_eq_evidence_iff, List.flatMap_eq_nil_iff]
  apply and_congr_left
  intro _
  apply forall₂_congr
  intro hit _
  rw [markedLines_marker_eq_nil_iff, forges_formatHit_iff]
  push Not
  rfl

end Hits

/-- A bucket is among those a table shows: fewer than 25 come before it. -/
def Shown (buckets : Std.ExtTreeMap String UInt64)
    (bucket : String × UInt64) : Prop :=
  bucket ∈ buckets.toList ∧
    buckets.toList.countP (fun rival => ahead byCount rival bucket) < 25

/-- No key of a bucket that the table shows looks like the provenance line or
has such a line. -/
def BucketsUnforged (kind : AggKind) (response : AggregateResponse real) :
    Prop :=
  kind ≠ .count → kind ≠ .percentiles →
    ∀ summary ∈ response.summary, ∀ bucket, Shown summary.buckets bucket →
      ¬ Forges ("\n" ++ bucket.1 ++ ": ").toList

private theorem mem_shownBuckets_iff (order : IterationOrder (String × UInt64))
    (buckets : Std.ExtTreeMap String UInt64) (bucket : String × UInt64) :
    bucket ∈ shownBuckets order buckets ↔ Shown buckets bucket := by
  have sorted := sortBy_perm byCount.le (order.arrange buckets.toList)
  have stored := sorted.trans (order.perm buckets.toList)
  have once : ((sortBy byCount.le (order.arrange buckets.toList)).map
      Prod.fst).Nodup :=
    (stored.map Prod.fst).nodup_iff.mpr (nodup_keys buckets)
  rw [shownBuckets, Shown, ← stored.countP_eq, ← stored.mem_iff]
  constructor
  · intro early
    have member := List.mem_of_mem_take early
    exact ⟨member, (mem_take_iff_countP_lt byCount
      (pairwise_sortBy byCount.trans byCount.total _) once 25 member).mp early⟩
  · intro membership
    rcases membership with ⟨member, few⟩
    exact (mem_take_iff_countP_lt byCount
      (pairwise_sortBy byCount.trans byCount.total _) once 25 member).mpr few

private theorem markedLines_bucketTable_iff
    (order : IterationOrder (String × UInt64)) (summary : AggregatePartial real) :
    markedLines marker
        (String.join ((shownBuckets order summary.buckets).map formatBucket) ++
          "(" ++ toString summary.count ++ " matched)\n").toList = [] ↔
      ∀ bucket, Shown summary.buckets bucket →
        ¬ Forges ("\n" ++ bucket.1 ++ ": ").toList := by
  have bucketsEnded : ∀ bucket ∈ shownBuckets order summary.buckets,
      Ended (formatBucket bucket).toList := by
    intro bucket _
    unfold formatBucket
    exact ended_toList_append _ (by decide)
  have parts : ∀ table count : String,
      (table ++ "(" ++ count ++ " matched)\n").toList =
        table.toList ++ ("(" ++ count ++ " matched)\n").toList := by
    intro table count
    simp only [String.toList_append, List.append_assoc]
  rw [parts, String.toList_join, List.flatMap_map,
    markedLines_append (Ended.flatMap bucketsEnded), markedLines_matched,
    List.append_nil, markedLines_flatMap bucketsEnded, List.flatMap_eq_nil_iff]
  simp only [markedLines_formatBucket_iff, mem_shownBuckets_iff]

private theorem ended_formatPercentile (percentile : Percentile real) :
    Ended (formatPercentile numbers percentile).toList := by
  unfold formatPercentile
  exact ended_toList_append _ (by decide)

private theorem markedLines_percentiles (percentiles : List (Percentile real)) :
    markedLines marker
      (String.join (percentiles.map (formatPercentile numbers))).toList = [] := by
  have linesEnded : ∀ percentile ∈ percentiles,
      Ended (formatPercentile numbers percentile).toList :=
    fun percentile _ => ended_formatPercentile numbers percentile
  rw [String.toList_join, List.flatMap_map, markedLines_flatMap linesEnded,
    List.flatMap_eq_nil_iff]
  exact fun percentile _ => markedLines_formatPercentile numbers percentile

private theorem ended_formatPartial (order : IterationOrder (String × UInt64))
    (kind : AggKind) (percentiles : List (Percentile real))
    (summary : AggregatePartial real) :
    Ended (formatPartial numbers order kind percentiles summary).toList := by
  unfold formatPartial
  split
  · exact ended_toList_append _ (by decide)
  · rw [String.toList_join, List.flatMap_map]
    exact Ended.flatMap
      (fun percentile _ => ended_formatPercentile numbers percentile)
  · exact ended_toList_append _ (by decide)

private theorem markedLines_formatPartial_iff
    (order : IterationOrder (String × UInt64))
    (kind : AggKind) (percentiles : List (Percentile real))
    (summary : AggregatePartial real) :
    markedLines marker
        (formatPartial numbers order kind percentiles summary).toList = [] ↔
      (kind ≠ .count → kind ≠ .percentiles →
        ∀ bucket, Shown summary.buckets bucket →
          ¬ Forges ("\n" ++ bucket.1 ++ ": ").toList) := by
  unfold formatPartial
  split
  · exact iff_of_true (markedLines_count summary.count)
      (fun notCount => absurd rfl notCount)
  · exact iff_of_true (markedLines_percentiles numbers percentiles)
      (fun _ notPercentiles => absurd rfl notPercentiles)
  · rename_i notCount notPercentiles
    rw [markedLines_bucketTable_iff]
    exact ⟨fun unforged _ _ => unforged,
      fun unforged => unforged notCount notPercentiles⟩

/-- The provenance lines found in a printed aggregate are the summary of its
manifest when no key of a shown bucket forges one. -/
theorem markedLines_formatAggregate_iff
    (order : IterationOrder (String × UInt64)) (now : Int) (kind : AggKind)
    (response : AggregateResponse real) :
    markedLines marker (formatAggregate numbers order now kind response).toList =
        (evidence now response.manifest).map String.toList ↔
      BucketsUnforged kind response ∧ ManifestUnbroken response.manifest := by
  unfold formatAggregate BucketsUnforged
  cases response.summary with
  | none =>
      rw [String.empty_append, ← List.nil_append (markedLines _ _),
        append_markedLines_eq_evidence_iff]
      simp
  | some summary =>
      rw [String.toList_append,
        markedLines_append (ended_formatPartial numbers order kind _ summary),
        append_markedLines_eq_evidence_iff, markedLines_formatPartial_iff]
      simp

end AetherEngine.AgentTools
