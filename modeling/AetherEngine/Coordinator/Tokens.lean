import AetherEngine.Coordinator.Service
import AetherEngine.Foundations.Lines
import AetherEngine.Foundations.Upserts
import AetherEngine.Foundations.Words

/-!
# The token file

A coordinator reads its scoped tokens from a file of lines `<token> <scope>`,
with `#` comments.  A file that cannot be read whole gives no authorization at
all: the coordinator does not start.
-/

namespace AetherEngine.Coordinator

open AetherEngine.Lines
open AetherEngine.Upserts
open AetherEngine.Words

/-- The characters of the Unicode property `White_Space`. -/
def isWhitespace (character : Char) : Bool :=
  let point := character.toNat
  (0x09 ≤ point && point ≤ 0x0d) || point = 0x20 || point = 0x85 ||
    point = 0xa0 || point = 0x1680 || (0x2000 ≤ point && point ≤ 0x200a) ||
    point = 0x2028 || point = 0x2029 || point = 0x202f || point = 0x205f ||
    point = 0x3000

def Scope.parse : String → Option Scope
  | "read" => some .read
  | "operator" => some .operator
  | _ => none

namespace Auth

/-- Without a token file every check passes. -/
def disabled : Auth where
  tokens := ∅
  enabled := false

/-- What a line grants; nothing when it is blank or a comment.  `debug` renders
a text for a message. -/
def readLine (debug : List Char → String) (line : List Char) :
    Except String (Option (String × Scope)) :=
  let line := trim isWhitespace line
  if line.isEmpty || line.head? = some '#' then
    .ok none
  else
    match words isWhitespace line with
    | token :: scope :: _ =>
        match Scope.parse (String.ofList scope) with
        | some scope => .ok (some (String.ofList token, scope))
        | none => .error ("unknown scope: " ++ debug scope)
    | _ => .error ("bad token line: " ++ debug line)

/-- Read the lines in turn; a token granted again takes its later scope. -/
def readLines (debug : List Char → String) :
    List (List Char) → Std.ExtTreeMap String Scope →
      Except String (Std.ExtTreeMap String Scope)
  | [], tokens => .ok tokens
  | line :: rest, tokens =>
      match readLine debug line with
      | .error message => .error message
      | .ok none => readLines debug rest tokens
      | .ok (some (token, scope)) =>
          readLines debug rest (tokens.insert token scope)

/-- Load the file that the environment names; `environment` is none where a
variable is unset or not text. -/
def fromEnv (debug : List Char → String) (environment : String → Option String)
    (readToString : String → Except String (List Char)) :
    Except String Auth :=
  match environment "AETHER_TOKENS_FILE" with
  | none => .ok disabled
  | some path =>
      match readToString path with
      | .error message => .error message
      | .ok contents =>
          match readLines debug (lines contents) ∅ with
          | .error message => .error message
          | .ok tokens =>
              if tokens.isEmpty then
                .error (path ++ " defines no tokens")
              else
                .ok { tokens := tokens, enabled := true }

end Auth

/-! ## What a line says -/

/-- The line has no words, or its first word begins a comment. -/
def SkippedLine (line : List Char) : Prop :=
  ∀ first more, words isWhitespace line = first :: more →
    first.head? = some '#'

/-- The first two words of the line are a token and the name of a scope. -/
def GrantingLine (token : String) (scope : Scope) (line : List Char) : Prop :=
  ∃ name more, words isWhitespace line = token.toList :: name :: more ∧
    token.toList.head? ≠ some '#' ∧
    Scope.parse (String.ofList name) = some scope

/-- The last line that grants the token grants it the scope. -/
def LastGrant (text : List (List Char)) (token : String) (scope : Scope) :
    Prop :=
  ∃ earlier line later, text = earlier ++ line :: later ∧
    GrantingLine token scope line ∧
    ∀ other ∈ later, ∀ otherScope, ¬ GrantingLine token otherScope other

private theorem skippedLine_iff (line : List Char) :
    SkippedLine line ↔
      ((trim isWhitespace line).isEmpty ||
        (trim isWhitespace line).head? = some '#') = true := by
  rw [Bool.or_eq_true, List.isEmpty_iff, trim_eq_nil_iff, decide_eq_true_eq,
    head?_trim, SkippedLine]
  cases words isWhitespace line with
  | nil =>
      simp
  | cons first more =>
      simp

private theorem GrantingLine.not_skipped {token : String} {scope : Scope}
    {line : List Char} (grants : GrantingLine token scope line) :
    ¬ SkippedLine line := by
  obtain ⟨name, more, found, notComment, -⟩ := grants
  exact fun skipped => notComment (skipped _ _ found)

theorem GrantingLine.unique {token other : String} {scope otherScope : Scope}
    {line : List Char} (grants : GrantingLine token scope line)
    (otherGrants : GrantingLine other otherScope line) :
    token = other ∧ scope = otherScope := by
  obtain ⟨name, more, found, -, parsed⟩ := grants
  obtain ⟨otherName, otherMore, otherFound, -, otherParsed⟩ := otherGrants
  rw [found, List.cons.injEq, List.cons.injEq] at otherFound
  obtain ⟨sameToken, sameName, -⟩ := otherFound
  rw [← sameName, parsed, Option.some.injEq] at otherParsed
  exact ⟨String.toList_inj.mp sameToken, otherParsed⟩

theorem lastGrant_cons_iff {line : List Char} {rest : List (List Char)}
    {token : String} {scope : Scope} :
    LastGrant (line :: rest) token scope ↔
      LastGrant rest token scope ∨
        GrantingLine token scope line ∧
          ∀ other ∈ rest, ∀ otherScope,
            ¬ GrantingLine token otherScope other := by
  constructor
  · rintro ⟨earlier, last, later, shape, grants, final⟩
    cases earlier with
    | nil =>
        rw [List.nil_append, List.cons.injEq] at shape
        rw [shape.1, shape.2]
        exact .inr ⟨grants, final⟩
    | cons first more =>
        rw [List.cons_append, List.cons.injEq] at shape
        exact .inl ⟨more, last, later, shape.2, grants, final⟩
  · rintro (⟨earlier, last, later, shape, grants, final⟩ | ⟨grants, final⟩)
    · exact ⟨line :: earlier, last, later, by simp [shape], grants, final⟩
    · exact ⟨[], line, rest, rfl, grants, final⟩

/-- Some line that grants a token is the last to do so. -/
theorem exists_lastGrant {text : List (List Char)} {line : List Char}
    {token : String} {scope : Scope} (member : line ∈ text)
    (grants : GrantingLine token scope line) :
    ∃ last, LastGrant text token last := by
  induction text generalizing line scope with
  | nil =>
      cases member
  | cons first rest inductionHypothesis =>
      by_cases final : ∀ other ∈ rest, ∀ otherScope,
          ¬ GrantingLine token otherScope other
      · rcases List.mem_cons.mp member with rfl | later
        · exact ⟨scope, lastGrant_cons_iff.mpr (.inr ⟨grants, final⟩)⟩
        · exact absurd grants (final line later scope)
      · push Not at final
        obtain ⟨other, later, otherScope, otherGrants⟩ := final
        obtain ⟨last, lastGrants⟩ := inductionHypothesis later otherGrants
        exact ⟨last, lastGrant_cons_iff.mpr (.inl lastGrants)⟩

/-! ## Reading the lines -/

/-- What reading a line comes to. -/
inductive ReadsAs (line : List Char) :
    Except String (Option (String × Scope)) → Prop where
  | skipped (skipped : SkippedLine line) : ReadsAs line (.ok none)
  | granted (token : String) (scope : Scope)
      (grants : GrantingLine token scope line) :
      ReadsAs line (.ok (some (token, scope)))
  | refused (message : String) (visible : ¬ SkippedLine line)
      (useless : ∀ token scope, ¬ GrantingLine token scope line) :
      ReadsAs line (.error message)

namespace Auth

variable {debug : List Char → String}

private theorem readsAs_readLine (line : List Char) :
    ReadsAs line (readLine debug line) := by
  by_cases skipped : SkippedLine line
  · rw [readLine, if_pos ((skippedLine_iff line).mp skipped)]
    exact .skipped skipped
  · have visible := skipped
    rw [skippedLine_iff] at visible
    rw [readLine, if_neg visible, words_trim]
    cases found : words isWhitespace line with
    | nil =>
        refine absurd ?_ skipped
        intro first more someFound
        rw [found] at someFound
        cases someFound
    | cons first rest =>
        have notComment : first.head? ≠ some '#' := by
          intro comment
          apply skipped
          intro other more otherFound
          rw [found, List.cons.injEq] at otherFound
          exact otherFound.1 ▸ comment
        cases rest with
        | nil =>
            refine .refused _ skipped ?_
            rintro token scope ⟨name, more, twoFound, -⟩
            rw [found] at twoFound
            cases twoFound
        | cons name more =>
            dsimp only
            cases parsed : Scope.parse (String.ofList name) with
            | none =>
                refine .refused _ skipped ?_
                rintro token scope ⟨other, others, otherFound, -, otherParsed⟩
                rw [found, List.cons.injEq, List.cons.injEq] at otherFound
                rw [← otherFound.2.1, parsed] at otherParsed
                cases otherParsed
            | some scope =>
                refine .granted _ scope ⟨name, more, ?_, ?_, parsed⟩
                · rw [String.toList_ofList, found]
                · rw [String.toList_ofList]
                  exact notComment

/-- All lines are read exactly if each is skipped or grants something. -/
theorem readLines_isOk_iff (text : List (List Char))
    (tokens : Std.ExtTreeMap String Scope) :
    (∃ loaded, readLines debug text tokens = .ok loaded) ↔
      ∀ line ∈ text, SkippedLine line ∨
        ∃ token scope, GrantingLine token scope line := by
  induction text generalizing tokens with
  | nil =>
      simp [readLines]
  | cons line rest inductionHypothesis =>
      rw [List.forall_mem_cons, readLines]
      have reads := @readsAs_readLine debug line
      revert reads
      generalize readLine debug line = reading
      intro reads
      cases reads with
      | skipped skipped =>
          dsimp only
          rw [inductionHypothesis]
          simp [skipped]
      | granted token scope grants =>
          dsimp only
          rw [inductionHypothesis]
          exact (and_iff_right (.inr ⟨token, scope, grants⟩)).symm
      | refused message visible useless =>
          dsimp only
          refine iff_of_false (by simp) ?_
          rintro ⟨skipped | ⟨token, scope, grants⟩, -⟩
          · exact visible skipped
          · exact useless token scope grants

/-- The table holds what the lines grant last, and for other tokens what it
held before. -/
theorem getElem?_readLines {text : List (List Char)}
    {tokens loaded : Std.ExtTreeMap String Scope}
    (read : readLines debug text tokens = .ok loaded) (token : String)
    (scope : Scope) :
    loaded[token]? = some scope ↔
      LastGrant text token scope ∨
        (∀ line ∈ text, ∀ otherScope,
          ¬ GrantingLine token otherScope line) ∧
          tokens[token]? = some scope := by
  induction text generalizing tokens with
  | nil =>
      cases read
      simp [LastGrant]
  | cons line rest inductionHypothesis =>
      rw [readLines] at read
      rw [lastGrant_cons_iff, List.forall_mem_cons]
      have reads := @readsAs_readLine debug line
      revert reads
      generalize readLine debug line = reading at read
      intro reads
      cases reads with
      | skipped skipped =>
          have useless : ∀ otherScope, ¬ GrantingLine token otherScope line :=
            fun _ grants => grants.not_skipped skipped
          rw [inductionHypothesis read]
          simp [useless]
      | granted granted grantedScope grants =>
          rw [inductionHypothesis read, Tables.getElem?_insert]
          by_cases same : granted = token
          · subst same
            have only : GrantingLine granted scope line ↔
                grantedScope = scope := by
              constructor
              · exact fun other => (grants.unique other).2
              · exact fun equality => equality ▸ grants
            have useful : ¬ ∀ otherScope,
                ¬ GrantingLine granted otherScope line :=
              fun useless => useless grantedScope grants
            rw [if_pos rfl, Option.some.injEq, only]
            tauto
          · have useless : ∀ otherScope,
                ¬ GrantingLine token otherScope line :=
              fun _ other => same (grants.unique other).1
            rw [if_neg same]
            simp [useless]
      | refused message visible useless =>
          cases read

theorem getElem?_loaded {text : List (List Char)}
    {loaded : Std.ExtTreeMap String Scope}
    (read : readLines debug text ∅ = .ok loaded) (token : String)
    (scope : Scope) :
    loaded[token]? = some scope ↔ LastGrant text token scope := by
  rw [getElem?_readLines read]
  simp

private theorem isEmpty_loaded_iff {text : List (List Char)}
    {loaded : Std.ExtTreeMap String Scope}
    (read : readLines debug text ∅ = .ok loaded) :
    loaded.isEmpty = false ↔
      ∃ line ∈ text, ∃ token scope, GrantingLine token scope line := by
  rw [Std.ExtTreeMap.isEmpty_eq_false_iff]
  constructor
  · intro present
    by_contra! useless
    apply present
    apply Std.ExtTreeMap.ext_getElem?
    intro token
    rw [Std.ExtTreeMap.getElem?_empty, Option.eq_none_iff_forall_ne_some]
    intro scope held
    obtain ⟨earlier, line, later, shape, grants, -⟩ :=
      (getElem?_loaded read token scope).mp held
    exact useless line (by simp [shape]) token scope grants
  · rintro ⟨line, member, token, scope, grants⟩ empty
    obtain ⟨last, final⟩ := exists_lastGrant member grants
    rw [← getElem?_loaded read, empty, Std.ExtTreeMap.getElem?_empty] at final
    cases final

/-! ## What a loaded file authorizes -/

private theorem bearerToken_eq_some_iff {credential token : String} :
    bearerToken credential = some token ↔ credential = "Bearer " ++ token := by
  rw [bearerToken, Option.ite_none_right_eq_some, Option.some.injEq,
    ← String.toList_inj, ← String.toList_inj, String.toList_append,
    String.toList_ofList]
  constructor
  · rintro ⟨begins, rest⟩
    rw [String.toList_ofList] at rest
    rw [← rest, ← begins, List.take_append_drop]
  · intro whole
    rw [whole]
    exact ⟨rfl, congrArg String.toList (String.ofList_toList)⟩

/-- The three outcomes of a check against a token table. -/
theorem require_of_enabled {auth : Auth} (enabled : auth.enabled = true)
    (authorization : Option String) (needed : Scope) :
    (∃ token scope, authorization = some ("Bearer " ++ token) ∧
        auth.tokens[token]? = some scope ∧
        auth.require authorization needed =
          if scope.satisfies needed then .ok ()
          else .error (.permissionDenied
            (needed.display ++ " scope required"))) ∨
      (∀ token, authorization = some ("Bearer " ++ token) →
        auth.tokens[token]? = none) ∧
        ∃ message, auth.require authorization needed =
          .error (.unauthenticated message) := by
  rw [require, if_pos enabled]
  cases presented : authorization.bind bearerToken with
  | none =>
      refine .inr ⟨?_, _, rfl⟩
      rintro token rfl
      rw [Option.bind_some, bearerToken_eq_some_iff.mpr rfl] at presented
      cases presented
  | some token =>
      obtain ⟨credential, rfl, parsed⟩ := Option.bind_eq_some_iff.mp presented
      rw [bearerToken_eq_some_iff] at parsed
      subst parsed
      dsimp only
      cases held : auth.tokens[token]? with
      | none =>
          refine .inr ⟨?_, _, rfl⟩
          intro other same
          rw [Option.some.injEq, String.append_right_inj] at same
          rw [← same, held]
      | some scope =>
          exact .inl ⟨token, scope, rfl, held, rfl⟩

theorem fromEnv_eq_ok_iff {debug : List Char → String}
    {environment : String → Option String}
    {readToString : String → Except String (List Char)} {path : String}
    {contents : List Char}
    (named : environment "AETHER_TOKENS_FILE" = some path)
    (readable : readToString path = .ok contents) (auth : Auth) :
    fromEnv debug environment readToString = .ok auth ↔
      ∃ loaded, readLines debug (lines contents) ∅ = .ok loaded ∧
        loaded.isEmpty = false ∧
        auth = { tokens := loaded, enabled := true } := by
  unfold fromEnv
  simp only [named, readable]
  cases readLines debug (lines contents) ∅ with
  | error message =>
      simp
  | ok loaded =>
      simp only [Except.ok.injEq, exists_eq_left']
      by_cases empty : loaded.isEmpty = true
      · rw [if_pos empty]
        simp [empty]
      · rw [if_neg empty, Except.ok.injEq, eq_comm (b := auth)]
        exact (and_iff_right (Bool.eq_false_iff.mpr empty)).symm

/-- A token file loads exactly if each of its lines is blank, a comment or a
grant and some line is a grant.  A request then passes exactly with a token
whose last grant has a sufficient scope; the scope is missing exactly when that
grant has too little, and the identity exactly when there is no such token. -/
theorem loaded_tokens_authorize_exactly (debug : List Char → String)
    (environment : String → Option String)
    (readToString : String → Except String (List Char)) (path : String)
    (contents : List Char)
    (named : environment "AETHER_TOKENS_FILE" = some path)
    (readable : readToString path = .ok contents) :
    ((∃ auth, fromEnv debug environment readToString = .ok auth) ↔
      (∀ line ∈ lines contents, SkippedLine line ∨
        ∃ token scope, GrantingLine token scope line) ∧
      ∃ line ∈ lines contents, ∃ token scope,
        GrantingLine token scope line) ∧
    ∀ auth, fromEnv debug environment readToString = .ok auth →
      ∀ authorization needed,
        (auth.require authorization needed = .ok () ↔
          ∃ token scope, authorization = some ("Bearer " ++ token) ∧
            LastGrant (lines contents) token scope ∧
            scope.satisfies needed = true) ∧
        ((∃ message, auth.require authorization needed =
            .error (.permissionDenied message)) ↔
          ∃ token scope, authorization = some ("Bearer " ++ token) ∧
            LastGrant (lines contents) token scope ∧
            scope.satisfies needed = false) ∧
        ((∃ message, auth.require authorization needed =
            .error (.unauthenticated message)) ↔
          ∀ token scope, authorization = some ("Bearer " ++ token) →
            ¬ LastGrant (lines contents) token scope) := by
  constructor
  · rw [← readLines_isOk_iff (lines contents) ∅]
    constructor
    · rintro ⟨auth, loads⟩
      obtain ⟨loaded, read, present, -⟩ :=
        (fromEnv_eq_ok_iff named readable auth).mp loads
      exact ⟨⟨loaded, read⟩, (isEmpty_loaded_iff read).mp present⟩
    · rintro ⟨⟨loaded, read⟩, useful⟩
      have present := (isEmpty_loaded_iff read).mpr useful
      exact ⟨_, (fromEnv_eq_ok_iff named readable _).mpr
        ⟨loaded, read, present, rfl⟩⟩
  · intro auth loads authorization needed
    obtain ⟨loaded, read, -, rfl⟩ :=
      (fromEnv_eq_ok_iff named readable auth).mp loads
    simp only [← getElem?_loaded read]
    rcases @require_of_enabled ⟨loaded, true⟩ rfl authorization needed with
      ⟨token, scope, rfl, held, outcome⟩ | ⟨unknown, message, outcome⟩
    · rw [outcome]
      by_cases sufficient : scope.satisfies needed = true
      · simp [held, sufficient]
      · rw [Bool.not_eq_true] at sufficient
        simp [held, sufficient]
    · have noGrant : ∀ token scope,
          authorization = some ("Bearer " ++ token) →
            loaded[token]? ≠ some scope := by
        intro token scope presented held
        rw [unknown token presented] at held
        cases held
      rw [outcome]
      refine ⟨iff_of_false (by simp) ?_, iff_of_false (by simp) ?_,
        iff_of_true ⟨message, rfl⟩ noGrant⟩
      · rintro ⟨token, scope, presented, held, -⟩
        exact noGrant token scope presented held
      · rintro ⟨token, scope, presented, held, -⟩
        exact noGrant token scope presented held

/-! ### A token granted twice -/

namespace TwoGrants

def contents : List Char :=
  "# clients\n\nclient read\nadmin read\n  admin operator since 2024\n".toList

def table : Std.ExtTreeMap String Scope :=
  ((∅ : Std.ExtTreeMap String Scope).insert "client" .read).insert "admin"
    .read |>.insert "admin" .operator

theorem loads :
    fromEnv String.ofList (fun _ => some "tokens") (fun _ => .ok contents) =
      .ok { tokens := table, enabled := true } := by
  rfl

theorem loaded_tokens_authorize_exactly_twoGrants :
    ∃ token scope, some "Bearer admin" = some ("Bearer " ++ token) ∧
      LastGrant (lines contents) token scope ∧
      scope.satisfies .operator = true := by
  have passes : Auth.require { tokens := table, enabled := true }
      (some "Bearer admin") .operator = .ok () := by
    rfl
  exact ((loaded_tokens_authorize_exactly String.ofList
    (fun _ => some "tokens") (fun _ => .ok contents) "tokens" contents rfl
    rfl).2 _ loads _ _).1.mp passes

end TwoGrants

end Auth

end AetherEngine.Coordinator
