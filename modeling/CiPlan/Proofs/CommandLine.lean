import CiPlan.Proofs.Source

/-!
# Command lines

The program that runs the tests of a bucket is told the level, the selectors of the bucket and the
path of the tests.  A selector that is `*` is not told, as it accepts every test; any other is, by
its text.  From what is told the tests of the bucket can be told apart again
(`accepts_tellBucket_iff`).

The texts are those that were written, so a `*` in a larger expression is told as well: the text of
a selector has a `*` just when its expression has one (`Selector.star_mem_source_iff`), because the
tokens of a text and the leaves of its tree are the same.  This also concerns selectors that accept
every test.  Main result: `TestCommand.commandLine_tells`.
-/

namespace CiPlan

/-- A `*` stands somewhere in the expression. -/
def Expr.hasStar : Expr → Bool
  | all => true
  | term _ => false
  | not e => e.hasStar
  | and l r | or l r => l.hasStar || r.hasStar

namespace Selector

section Stars

variable {ts : List Token}

/-- A phrase has a star among its tokens when its tree has one. -/
theorem Derives.star_mem_iff {level : Level} {n : Nat} {e : Expr} (h : Derives level ts n e) :
    .star ∈ ts ↔ e.hasStar = true := by
  induction h with
  | word name => simp [Expr.hasStar]
  | star => simp [Expr.hasStar]
  | paren h ih => simpa using ih
  | not h ih => simpa [Expr.hasStar] using ih
  | ofUnary h ih | ofConjunction h ih => exact ih
  | and hl hr ihl ihr | or hl hr ihl ihr => simp [Expr.hasStar, ihl, ihr]

/-- Identifier characters are no stars. -/
theorem star_notMem_of_isWordChar {word : List Char} (h : ∀ c ∈ word, isWordChar c = true) :
    '*' ∉ word :=
  fun hstar => absurd (h _ hstar) (by decide)

/-- A text has a star when it is among the tokens. -/
theorem Scans.star_mem_iff {cs : List Char} (h : Scans cs ts) : '*' ∈ cs ↔ .star ∈ ts := by
  induction h with
  | nil => simp
  | @blank c cs ts hc _ ih =>
      have hne : '*' ≠ c := by
        rintro rfl
        exact absurd hc (by decide)
      rw [List.mem_cons, ih]
      exact or_iff_right hne
  | symbol ht _ ih =>
      simp only [List.mem_cons, List.not_mem_nil, or_false] at ht
      rcases ht with rfl | rfl | rfl <;> simp [Token.text, ih]
  | keyword ht _ _ ih =>
      have htext := star_notMem_of_isWordChar (isWordChar_of_mem_keyword ht)
      simp only [List.mem_cons, List.not_mem_nil, or_false] at ht
      rcases ht with rfl | rfl | rfl <;> simp [htext, ih]
  | word hn _ _ ih => simp [star_notMem_of_isWordChar hn.chars, ih]

/-- The text of a selector has a star when its expression has one. -/
theorem star_mem_source_iff (s : Selector) :
    '*' ∈ s.source.toList ↔ s.expr.hasStar = true := by
  obtain ⟨-, ls, n, hlex, -, hderives⟩ := exists_derives_of_parseExpr s.spells
  rw [(scans_of_lex hlex).star_mem_iff, hderives.star_mem_iff]

end Stars

theorem isSelectAll_iff {s : Selector} : s.isSelectAll = true ↔ s.expr = .all :=
  decide_eq_true_iff

/-- The selector accepts every test, by its tags and by its name. -/
structure AcceptsAll (s : Selector) : Prop where
  tags : ∀ tags, s.matchesTags tags = true
  name : ∀ name, s.matchesName name = true

theorem acceptsAll_of_expr_eq {s : Selector} (h : s.expr = .all) : s.AcceptsAll := by
  refine ⟨fun tags => ?_, fun name => ?_⟩
  · rw [matchesTags, h]
    rfl
  · rw [matchesName, h]
    rfl

end Selector

namespace TestCommand

/-! ## What is told -/

/-- What the program that runs the tests is told besides the level. -/
structure Told where
  marker : Option String
  keyword : Option String
  path : Option String

namespace Told

/-- An option with a text, if there is one. -/
def option (name : String) : Option String → List String
  | some text => [name, text]
  | none => []

/-- The words of a command line that tell it. -/
def words (told : Told) : List String :=
  option "-m" told.marker ++ option "-k" told.keyword ++ told.path.toList

/-- A test is accepted by the selectors that are told. -/
def Accepts (told : Told) (test : TestCase) : Prop :=
  (∀ text ∈ told.marker, ∃ s, Selector.parse text = .ok s ∧ s.matchesTags test.tags = true) ∧
    ∀ text ∈ told.keyword, ∃ s, Selector.parse text = .ok s ∧ s.matchesName test.name = true

/-- A text tells a selector: one that is missing or `*` by no text, any other by one that is read as
the selector. -/
structure Tells (text? : Option String) (s? : Option Selector) : Prop where
  omitted : text? = none ↔ ∀ s ∈ s?, s.expr = .all
  /-- What is not told of would accept every test. -/
  acceptsAll : text? = none → ∀ s ∈ s?, s.AcceptsAll
  read : ∀ text ∈ text?, ∃ s ∈ s?, Selector.parse text = .ok s ∧ s.expr ≠ .all
  /-- The text has a star when the expression has one. -/
  starred : ∀ text ∈ text?, ('*' ∈ text.toList ↔ ∃ s ∈ s?, s.expr.hasStar = true)

end Told

/-- The text by which a selector is told. -/
def told? (s? : Option Selector) : Option String :=
  (s?.filter (!·.isSelectAll)).map (·.source)

theorem told?_all {s : Selector} (h : s.expr = .all) : told? (some s) = none := by
  simp [told?, Selector.isSelectAll_iff, h]

theorem told?_of_ne {s : Selector} (h : s.expr ≠ .all) : told? (some s) = some s.source := by
  simp [told?, Selector.isSelectAll, h]

theorem selectorOption_eq (name : String) (s? : Option Selector) :
    selectorOption name s? = Told.option name (told? s?) := by
  cases s? with
  | none => rfl
  | some s =>
      by_cases h : s.expr = .all
      · rw [told?_all h, selectorOption, if_pos (Selector.isSelectAll_iff.mpr h)]
        rfl
      · rw [told?_of_ne h, selectorOption, if_neg fun hall => h (Selector.isSelectAll_iff.mp hall)]
        rfl

theorem tells_told? (s? : Option Selector) : Told.Tells (told? s?) s? := by
  cases s? with
  | none =>
      refine ⟨by simp [told?], ?_, nofun, nofun⟩
      intro _ s hs
      cases hs
  | some s =>
      by_cases h : s.expr = .all
      · rw [told?_all h]
        refine ⟨by simp [h], ?_, nofun, nofun⟩
        rintro - s' ⟨⟩
        exact Selector.acceptsAll_of_expr_eq h
      · rw [told?_of_ne h]
        refine ⟨by simp [h], nofun, ?_, ?_⟩
        · rintro text ⟨⟩
          exact ⟨s, rfl, s.parse_self, h⟩
        · rintro text ⟨⟩
          rw [s.star_mem_source_iff]
          simp

/-- A test is accepted by what is told of a selector as it is by the selector. -/
theorem Told.Tells.forall_iff {text? : Option String} {s? : Option Selector} (h : Tells text? s?)
    {accepts : Selector → Prop} (hall : ∀ s : Selector, s.AcceptsAll → accepts s) :
    (∀ text ∈ text?, ∃ s, Selector.parse text = .ok s ∧ accepts s) ↔ ∀ s ∈ s?, accepts s := by
  cases htext : text? with
  | none =>
      have hother := h.acceptsAll htext
      exact ⟨fun _ s hs => hall s (hother s hs), nofun⟩
  | some text =>
      obtain ⟨s, hs, hread, -⟩ := h.read text htext
      cases hs
      constructor
      · rintro haccepts s' ⟨⟩
        obtain ⟨s', hs', haccepted⟩ := haccepts text rfl
        cases hread.symm.trans hs'
        exact haccepted
      · rintro haccepts text' ⟨⟩
        exact ⟨s, hread, haccepts s rfl⟩

/-- A text that is told has a star when the selector has one and is not `*` itself. -/
theorem Told.Tells.exists_star_iff {text? : Option String} {s? : Option Selector}
    (h : Tells text? s?) :
    (∃ text ∈ text?, '*' ∈ text.toList) ↔ ∃ s ∈ s?, s.expr ≠ .all ∧ s.expr.hasStar = true := by
  constructor
  · rintro ⟨text, htext, hstar⟩
    obtain ⟨s, hs, -, hne⟩ := h.read text htext
    obtain ⟨s', hs', hstar⟩ := (h.starred text htext).mp hstar
    cases hs.symm.trans hs'
    exact ⟨s, hs, hne, hstar⟩
  · rintro ⟨s, hs, hne, hstar⟩
    cases htext : text? with
    | none => exact absurd (h.omitted.mp htext s hs) hne
    | some text => exact ⟨text, rfl, (h.starred text htext).mpr ⟨s, hs, hstar⟩⟩

/-! ## The whole command line -/

/-- What is told of a bucket. -/
def tellBucket (c : TestCommand) (b : Bucket) : Told where
  marker := told? (some b.marker)
  keyword := told? b.keyword
  path := if c.testPath = "" then none else some c.testPath

theorem commandLine_eq (c : TestCommand) (b : Bucket) (level : TriggerLevel) :
    c.commandLine b level =
      c.program :: c.arguments ++ ["--level", level.name] ++ (c.tellBucket b).words := by
  have hpath : (if c.testPath.isEmpty = true then [] else [c.testPath]) =
      (c.tellBucket b).path.toList := by
    rw [tellBucket]
    by_cases h : c.testPath = ""
    · rw [if_pos h, if_pos (String.isEmpty_iff.mpr h)]
      rfl
    · rw [if_neg h, if_neg fun hempty => h (String.isEmpty_iff.mp hempty)]
      rfl
  rw [commandLine, argumentsFor, selectorOption_eq, selectorOption_eq, hpath, Told.words]
  simp only [List.append_assoc, List.cons_append]
  rfl

/-- What is told of a bucket accepts the tests that the bucket selects. -/
theorem accepts_tellBucket_iff (c : TestCommand) (b : Bucket) (test : TestCase) :
    (c.tellBucket b).Accepts test ↔ b.selects test = true := by
  have hmarker : (∀ text ∈ told? (some b.marker), ∃ s, Selector.parse text = .ok s ∧
      s.matchesTags test.tags = true) ↔ ∀ s ∈ some b.marker, s.matchesTags test.tags = true :=
    (tells_told? (some b.marker)).forall_iff fun s hs => hs.tags test.tags
  have hkeyword : (∀ text ∈ told? b.keyword, ∃ s, Selector.parse text = .ok s ∧
      s.matchesName test.name = true) ↔ ∀ s ∈ b.keyword, s.matchesName test.name = true :=
    (tells_told? b.keyword).forall_iff fun s hs => hs.name test.name
  rw [Told.Accepts, Bucket.selects, Bool.and_eq_true]
  refine and_congr (hmarker.trans ?_) (hkeyword.trans ?_)
  · simp
  · cases b.keyword <;> simp

theorem ofParts_eq_ok_iff {command : List String} {testPath : String} {c : TestCommand} :
    ofParts command testPath = .ok c ↔
      command = c.program :: c.arguments ∧ testPath = c.testPath := by
  cases command with
  | nil => simp [ofParts]
  | cons program arguments =>
      simp only [ofParts, Except.ok.injEq, List.cons.injEq]
      constructor
      · rintro rfl
        exact ⟨⟨rfl, rfl⟩, rfl⟩
      · rintro ⟨⟨rfl, rfl⟩, rfl⟩
        rfl

/-- The command line of a bucket is the configured command, the level, the selectors and the path of
the tests, and from what it tells the tests of the bucket can be told apart again.  A selector is
left out when it is missing or `*`, which accepts every test; a text that is there is read as the
selector.  A text has a star just when the selector has one in a larger expression. -/
theorem commandLine_tells {command : List String} {testPath : String} {c : TestCommand}
    (hc : ofParts command testPath = .ok c) (b : Bucket) (level : TriggerLevel) :
    ∃ told : Told,
      c.commandLine b level = command ++ ["--level", level.name] ++ told.words ∧
      Told.Tells told.marker (some b.marker) ∧ Told.Tells told.keyword b.keyword ∧
      told.path = (if testPath = "" then none else some testPath) ∧
      (∀ test, told.Accepts test ↔ b.selects test = true) ∧
      ((∃ text ∈ told.marker, '*' ∈ text.toList) ↔
        b.marker.expr ≠ .all ∧ b.marker.expr.hasStar = true) ∧
      ((∃ text ∈ told.keyword, '*' ∈ text.toList) ↔
        ∃ s ∈ b.keyword, s.expr ≠ .all ∧ s.expr.hasStar = true) := by
  obtain ⟨rfl, rfl⟩ := ofParts_eq_ok_iff.mp hc
  have hmarker := (tells_told? (some b.marker)).exists_star_iff
  refine ⟨c.tellBucket b, c.commandLine_eq b level, tells_told? _, tells_told? _, rfl,
    c.accepts_tellBucket_iff b, hmarker.trans ?_, (tells_told? b.keyword).exists_star_iff⟩
  simp

/-- A bucket whose marker accepts every test, in more words than `*`. -/
def wordyBucket : Bucket where
  name := "everything"
  level := .local
  marker := .known "* or clustertest" (.or .all (.term "clustertest"))
  keyword := some .all
  profile := "docker"
  timeoutSecs := none
  exclusiveGroup := none

theorem commandLine_tells_wordyBucket :
    ofParts ["pytest", "-v"] "tests" = .ok ⟨"pytest", ["-v"], "tests"⟩ ∧
      ∃ told : Told, (⟨"pytest", ["-v"], "tests"⟩ : TestCommand).commandLine wordyBucket .local =
        ["pytest", "-v", "--level", "local"] ++ told.words ∧ told.keyword = none := by
  obtain ⟨told, hline, -, hkeyword, -⟩ :=
    commandLine_tells (ofParts_eq_ok_iff.mpr ⟨rfl, rfl⟩ :
      ofParts ["pytest", "-v"] "tests" = .ok ⟨"pytest", ["-v"], "tests"⟩) wordyBucket .local
  refine ⟨rfl, told, hline, hkeyword.omitted.mpr ?_⟩
  rintro s ⟨⟩
  rfl

/-- A marker that accepts every test is told with its star. -/
theorem commandLine_tells_star :
    wordyBucket.marker.AcceptsAll ∧ '*' ∈ "* or clustertest".toList ∧
      (⟨"pytest", ["-v"], "tests"⟩ : TestCommand).commandLine wordyBucket .local =
        ["pytest", "-v", "--level", "local", "-m", "* or clustertest", "tests"] := by
  refine ⟨⟨fun _ => rfl, fun _ => rfl⟩, by decide, ?_⟩
  rfl

end TestCommand

end CiPlan
