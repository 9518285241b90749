import CiPlan.Leak.Listing
import CiPlan.Proofs.TextLines
import CiPlan.Text.Utf8
import Mathlib.Data.List.Forall2

/-!
# Listings are read line by line

The resources of a listing are those of its lines, one after the other.  Whether a line feed stands
by itself or behind a carriage return, and whether there is one at the end, makes no difference,
since blanks at the end of a line are not looked at.  A filter of what is read is as local as the
reading (`ReadsByLine.filter`), so what holds of all resources holds of the leaked ones.

Main result: `parse_readsByLine`.
-/

namespace CiPlan

namespace Text

/-! ## Letters of either case -/

/-- The two characters are the same letter of ASCII in either case, or else the same character. -/
def SameLetter (c d : Char) : Prop :=
  c = d ∨ ('A' ≤ c ∧ c ≤ 'Z' ∧ d.toNat = c.toNat + 32) ∨
    ('A' ≤ d ∧ d ≤ 'Z' ∧ c.toNat = d.toNat + 32)

theorem isUpper_iff {c : Char} : ('A' ≤ c ∧ c ≤ 'Z') ↔ 65 ≤ c.toNat ∧ c.toNat ≤ 90 := by
  rw [Char.le_def, Char.le_def, UInt32.le_iff_toNat_le, UInt32.le_iff_toNat_le]
  exact Iff.rfl

theorem toNat_lowerAscii (c : Char) :
    (lowerAscii c).toNat = if 65 ≤ c.toNat ∧ c.toNat ≤ 90 then c.toNat + 32 else c.toNat := by
  unfold lowerAscii
  by_cases hc : 'A' ≤ c ∧ c ≤ 'Z'
  · have hbounds := isUpper_iff.mp hc
    have hvalid : (c.toNat + 32).isValidChar := by
      left
      omega
    rw [if_pos hc, if_pos hbounds, toNat_ofNat_of_isValidChar hvalid]
  · rw [if_neg hc, if_neg (mt isUpper_iff.mpr hc)]

theorem lowerAscii_eq_iff {c d : Char} : lowerAscii c = lowerAscii d ↔ SameLetter c d := by
  rw [← Char.toNat_inj, toNat_lowerAscii, toNat_lowerAscii, SameLetter, ← and_assoc, ← and_assoc,
    isUpper_iff, isUpper_iff, ← Char.toNat_inj]
  split <;> split <;> omega

/-- Two texts are equal up to the case of ASCII letters when their characters are, one by one. -/
theorem eqIgnoringAsciiCase_iff {s t : String} :
    eqIgnoringAsciiCase s t = true ↔ List.Forall₂ SameLetter s.toList t.toList := by
  rw [eqIgnoringAsciiCase, beq_iff_eq, ← List.forall₂_eq_eq_eq, List.forall₂_map_left_iff,
    List.forall₂_map_right_iff]
  simp only [lowerAscii_eq_iff]

end Text

open Text

namespace StatusParser

/-! ## Reading lines -/

/-- The resource of a line. -/
def resourceOf (p : StatusParser) (line : List Char) : Option Resource :=
  p.readLine (String.ofList (trimEndChars line))

/-- A carriage return at the end of a line is trimmed with the other blanks. -/
theorem trimEndChars_dropReturn (acc : List Char) :
    trimEndChars (match acc with
      | '\r' :: line => line.reverse
      | line => line.reverse) = trimEndChars acc.reverse := by
  split
  · next line =>
    rw [trimEndChars, trimEndChars, List.reverse_reverse, List.reverse_reverse]
    rfl
  · rfl

theorem splitLines_newline (acc cs : List Char) :
    splitLines acc ('\n' :: cs) =
      (match acc with
        | '\r' :: line => line.reverse
        | line => line.reverse) :: splitLines [] cs :=
  rfl

theorem splitLines_cons (acc cs : List Char) {c : Char} (hc : c ≠ '\n') :
    splitLines acc (c :: cs) = splitLines (c :: acc) cs :=
  if_neg (by simpa using hc)

theorem map_trimEndChars_splitLines (cs : List Char) : ∀ acc : List Char, '\n' ∉ acc →
    (splitLines acc cs).map trimEndChars = (textLines (acc.reverse ++ cs)).map trimEndChars := by
  induction cs with
  | nil =>
      intro acc hacc
      rw [List.append_nil]
      cases acc with
      | nil => rfl
      | cons c acc =>
          rw [textLines_of_not_mem (fun h => hacc (List.mem_reverse.mp h)) (by simp)]
          rfl
  | cons c cs ih =>
      intro acc hacc
      by_cases hc : c = '\n'
      · subst hc
        rw [textLines_append_cons (fun h => hacc (List.mem_reverse.mp h)), splitLines_newline,
          List.map_cons, List.map_cons, trimEndChars_dropReturn, ih [] List.not_mem_nil]
        rfl
      · have hacc' : '\n' ∉ c :: acc :=
          List.not_mem_cons_of_ne_of_not_mem (Ne.symm hc) hacc
        have hstep := ih (c :: acc) hacc'
        rw [List.reverse_cons, List.append_assoc, List.singleton_append] at hstep
        rw [splitLines_cons acc cs hc]
        exact hstep

/-- Lines are read alike when they are but for blanks at their ends. -/
theorem filterMap_resourceOf_congr (p : StatusParser) {lines lines' : List (List Char)}
    (h : lines'.map trimEndChars = lines.map trimEndChars) :
    lines'.filterMap p.resourceOf = lines.filterMap p.resourceOf := by
  have hread := congrArg (List.filterMap fun line => p.readLine (String.ofList line)) h
  rw [List.filterMap_map, List.filterMap_map] at hread
  exact hread

/-- A listing is read line by line. -/
theorem parse_eq (p : StatusParser) (listing : String) :
    p.parse listing = (textLines listing.toList).filterMap p.resourceOf := by
  show (splitLines [] listing.toList).filterMap p.resourceOf = _
  apply p.filterMap_resourceOf_congr
  exact map_trimEndChars_splitLines listing.toList [] List.not_mem_nil

end StatusParser

/-! ## Reading by lines -/

/-- What is read of a listing is what is read of its lines, one after the other, however these
end. -/
structure ReadsByLine (read : String → List Resource) : Prop where
  /-- What comes after the end of a line is read by itself. -/
  append : ∀ front back, read (front ++ "\n" ++ back) = read (front ++ "\n") ++ read back
  /-- Every line adds what it adds alone, and nothing else is read. -/
  join : ∀ lines : List String,
    read (String.join (lines.map (· ++ "\n"))) = lines.flatMap fun line => read (line ++ "\n")
  /-- The last line may end in a line feed or not. -/
  final : ∀ text, text ≠ "" → text.toList.getLast? ≠ some '\n' → read (text ++ "\n") = read text
  /-- Any line feed may have a carriage return before it. -/
  returns : ∀ text text', AddsReturns text.toList text'.toList → read text' = read text
  /-- All of them may. -/
  crlf : ∀ text, read (replaceAll "\n" "\r\n" text) = read text

/-- What is picked out of the resources by a property of each is read by lines, too. -/
theorem ReadsByLine.filter {read : String → List Resource} (h : ReadsByLine read)
    (p : Resource → Bool) : ReadsByLine fun text => (read text).filter p where
  append front back := by rw [h.append, List.filter_append]
  join lines := by rw [h.join, List.filter_flatMap]
  final text hne hlast := by rw [h.final text hne hlast]
  returns text text' hreturns := by rw [h.returns text text' hreturns]
  crlf text := by rw [h.crlf]

namespace StatusParser

/-- The resource is in a running state, as far as the case of ASCII letters goes, and its name is
that of the run. -/
def Leaks (p : StatusParser) (r : Resource) : Prop :=
  (∃ state ∈ p.runningStates, List.Forall₂ SameLetter state.toList r.status.toList) ∧
    p.attributes r.name = true

theorem isLeaked_iff (p : StatusParser) (r : Resource) : p.isLeaked r = true ↔ p.Leaks r := by
  rw [isLeaked, isRunning, Bool.and_eq_true, List.any_eq_true, Leaks]
  simp only [eqIgnoringAsciiCase_iff]

instance (p : StatusParser) (r : Resource) : Decidable (p.Leaks r) :=
  decidable_of_iff (p.isLeaked r = true) (p.isLeaked_iff r)

theorem parse_congr (p : StatusParser) {text text' : String}
    (h : (textLines text'.toList).map trimEndChars = (textLines text.toList).map trimEndChars) :
    p.parse text' = p.parse text := by
  rw [parse_eq, parse_eq]
  exact p.filterMap_resourceOf_congr h

theorem parse_append (p : StatusParser) (front back : String) :
    p.parse (front ++ "\n" ++ back) = p.parse (front ++ "\n") ++ p.parse back := by
  have hlines := textLines_append_newline front.toList back.toList
  rw [parse_eq, parse_eq, parse_eq, ← List.filterMap_append, String.toList_append,
    String.toList_append]
  show (textLines (front.toList ++ ['\n'] ++ back.toList)).filterMap p.resourceOf = _
  rw [List.append_assoc]
  exact congrArg (List.filterMap p.resourceOf) hlines

theorem parse_empty (p : StatusParser) : p.parse "" = [] := by
  rw [parse_eq]
  rfl

/-- What one line is read as. -/
theorem parse_line (p : StatusParser) {line : String} (h : '\n' ∉ line.toList) :
    p.parse (line ++ "\n") = (p.readLine (trimEnd line)).toList := by
  have hlines : textLines (line ++ "\n").toList = [line.toList] := by
    rw [String.toList_append]
    exact textLines_append_cons h []
  rw [parse_eq, hlines]
  show [line.toList].filterMap p.resourceOf = (p.resourceOf line.toList).toList
  cases hread : p.resourceOf line.toList with
  | none => rw [List.filterMap_cons_none hread, List.filterMap_nil, Option.toList_none]
  | some r => rw [List.filterMap_cons_some hread, List.filterMap_nil, Option.toList_some]

theorem readsByLine (p : StatusParser) : ReadsByLine p.parse where
  append := p.parse_append
  join lines := by
    induction lines with
    | nil => exact p.parse_empty
    | cons line lines ih =>
        rw [List.map_cons, String.join_cons, parse_append, ih, List.flatMap_cons]
  final text hne hlast := by
    apply p.parse_congr
    have hchars : text.toList ≠ [] := fun hnil => hne (String.toList_eq_nil_iff.mp hnil)
    rw [String.toList_append]
    exact congrArg (List.map trimEndChars) (textLines_concat_newline hchars hlast)
  returns text text' h := p.parse_congr h.map_trimEndChars
  crlf text := by
    apply p.parse_congr
    rw [replaceAll, String.toList_ofList]
    exact (addsReturns_replaceChars text.toList).map_trimEndChars

/-- Listings are read line by line.  So are the leaked resources in them, which are those that leak
among all, in their order and as often as they are there. -/
theorem parse_readsByLine (p : StatusParser) :
    ReadsByLine p.parse ∧ ReadsByLine p.leaked ∧
      (∀ line : String, '\n' ∉ line.toList →
        p.parse (line ++ "\n") = (p.readLine (trimEnd line)).toList) ∧
      ∀ listing, p.leaked listing = (p.parse listing).filter fun r => decide (p.Leaks r) := by
  refine ⟨p.readsByLine, p.readsByLine.filter p.isLeaked, fun line => p.parse_line, ?_⟩
  intro listing
  rw [leaked]
  apply List.filter_congr
  intro r _
  rw [Bool.eq_iff_iff, isLeaked_iff, decide_eq_true_iff]

/-! ### A listing of three lines -/

/-- The parser of some settings is there when what it does can be evaluated. -/
theorem exists_of_any (config : LeakCheckConfig) (check : StatusParser → Bool)
    (h : (ofConfig config).toOption.any check = true) :
    ∃ parser, ofConfig config = .ok parser ∧ check parser = true := by
  cases hparser : ofConfig config with
  | error e =>
      rw [hparser] at h
      cases h
  | ok parser =>
      rw [hparser] at h
      exact ⟨parser, rfl, h⟩

/-- A listing with a line that lists nothing, a resource that is running and one that is not. -/
def threeLines : String :=
  "NAME STATUS\nrh-ci-aws 5m UP -\nrh-ci-gcp 1h STOPPED -\n"

theorem parse_readsByLine_threeLines :
    ∃ parser, ofConfig LeakCheckConfig.default = .ok parser ∧
      '\n' ∉ "rh-ci-gcp 1h STOPPED -\t\r".toList ∧
      parser.parse ("rh-ci-gcp 1h STOPPED -\t\r" ++ "\n") = [⟨"rh-ci-gcp", "STOPPED"⟩] ∧
      parser.leaked (replaceAll "\n" "\r\n" threeLines) = [⟨"rh-ci-aws", "UP"⟩] := by
  have hnewline : '\n' ∉ "rh-ci-gcp 1h STOPPED -\t\r".toList := by decide
  obtain ⟨parser, hparser, hread⟩ := exists_of_any LeakCheckConfig.default
    (fun parser =>
      parser.readLine (trimEnd "rh-ci-gcp 1h STOPPED -\t\r") = some ⟨"rh-ci-gcp", "STOPPED"⟩ ∧
        parser.leaked threeLines = [⟨"rh-ci-aws", "UP"⟩]) (by decide +kernel)
  obtain ⟨hone, hleaked⟩ := of_decide_eq_true hread
  obtain ⟨-, hreads, hline, -⟩ := parse_readsByLine parser
  refine ⟨parser, hparser, hnewline, ?_, ?_⟩
  · rw [hline _ hnewline, hone]
    rfl
  · rw [hreads.crlf, hleaked]

end StatusParser

end CiPlan
