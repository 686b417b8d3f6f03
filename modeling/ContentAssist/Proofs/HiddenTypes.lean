import ContentAssist.HiddenTypes
import ContentAssist.Proofs.Text.Blank
import Mathlib.Data.List.Forall2

/-! What patterns hide, in terms of what their globs match: a type, or the outer name of a member. A
glob matches what can be cut into one piece for every character of its pattern. -/

namespace ContentAssist

namespace Glob

theorem matches_append_iff {front back : Glob} {text : List Char} :
    (front ++ back).Matches text ↔
      ∃ head tail, text = head ++ tail ∧ front.Matches head ∧ back.Matches tail := by
  induction front generalizing text with
  | nil =>
      constructor
      · intro matched
        exact ⟨[], text, rfl, .done, matched⟩
      · intro ⟨head, tail, same, empty, matched⟩
        cases empty
        rwa [same]
  | cons part front ih =>
      rw [List.cons_append]
      constructor
      · intro matched
        cases matched with
        | exactly c rest =>
            obtain ⟨head, tail, same, first, second⟩ := ih.mp rest
            exact ⟨c :: head, tail, congrArg (c :: ·) same, .exactly c first, second⟩
        | @anyChar _ _ c wild rest =>
            obtain ⟨head, tail, same, first, second⟩ := ih.mp rest
            exact ⟨c :: head, tail, congrArg (c :: ·) same, .anyChar wild first, second⟩
        | anyRun run wild rest =>
            obtain ⟨head, tail, same, first, second⟩ := ih.mp rest
            refine ⟨run ++ head, tail, ?_, .anyRun run wild first, second⟩
            rw [same, List.append_assoc]
      · intro ⟨head, tail, same, matched, second⟩
        subst same
        cases matched with
        | exactly c rest => exact .exactly c (ih.mpr ⟨_, tail, rfl, rest, second⟩)
        | anyChar wild rest => exact .anyChar wild (ih.mpr ⟨_, tail, rfl, rest, second⟩)
        | anyRun run wild rest =>
            rw [List.append_assoc]
            exact .anyRun run wild (ih.mpr ⟨_, tail, rfl, rest, second⟩)

def StandsFor (c : Char) (piece : List Char) : Prop :=
  if c = '*' then '\n' ∉ piece
  else if c = '?' then ∃ other, other ≠ '\n' ∧ piece = [other]
  else piece = [c]

def Spells (pattern text : List Char) : Prop :=
  ∃ pieces : List (List Char), List.Forall₂ StandsFor pattern pieces ∧ text = pieces.flatten

theorem all_isWild_iff {run : List Char} : (∀ c ∈ run, isWild c) ↔ '\n' ∉ run := by
  simp only [isWild, bne_iff_ne]
  exact ⟨fun wild member => wild _ member rfl, fun free c member same => free (same ▸ member)⟩

theorem matches_single_iff {c : Char} {piece : List Char} :
    (ofChars [c]).Matches piece ↔ StandsFor c piece := by
  unfold StandsFor ofChars
  rw [List.map_singleton]
  split
  next =>
      constructor
      · intro matched
        cases matched with
        | anyRun run wild rest =>
            cases rest
            rw [List.append_nil]
            exact all_isWild_iff.mp wild
      · intro free
        have run : Matches [.anyRun] (piece ++ []) := .anyRun piece (all_isWild_iff.mpr free) .done
        rwa [List.append_nil] at run
  next =>
      split
      next =>
          constructor
          · intro matched
            cases matched with
            | @anyChar _ _ other wild rest =>
                cases rest
                exact ⟨other, by simpa [isWild] using wild, rfl⟩
          · intro ⟨other, wild, same⟩
            rw [same]
            exact .anyChar (by simpa [isWild] using wild) .done
      next =>
          constructor
          · intro matched
            cases matched with
            | exactly _ rest =>
                cases rest
                rfl
          · intro same
            rw [same]
            exact .exactly c .done

theorem matches_ofChars_iff {pattern text : List Char} :
    (ofChars pattern).Matches text ↔ Spells pattern text := by
  induction pattern generalizing text with
  | nil =>
      constructor
      · intro matched
        cases matched
        exact ⟨[], .nil, rfl⟩
      · intro ⟨pieces, spelled, same⟩
        cases spelled
        rw [same]
        exact .done
  | cons c pattern ih =>
      have split : ofChars (c :: pattern) = ofChars [c] ++ ofChars pattern := rfl
      rw [split, matches_append_iff]
      constructor
      · intro ⟨piece, rest, same, matched, others⟩
        obtain ⟨pieces, spelled, flat⟩ := ih.mp others
        exact ⟨piece :: pieces, .cons (matches_single_iff.mp matched) spelled,
          by rw [same, flat, List.flatten_cons]⟩
      · intro ⟨pieces, spelled, same⟩
        cases spelled with
        | @cons _ piece _ pieces stands others =>
            exact ⟨piece, pieces.flatten, same, matches_single_iff.mpr stands,
              ih.mpr ⟨pieces, others, rfl⟩⟩

end Glob

namespace HiddenTypes

theorem members_matches_iff {text : List Char} :
    members.Matches text ↔ ∃ member, text = '.' :: member ∧ ∀ c ∈ member, Glob.isWild c := by
  constructor
  · intro matched
    cases matched with
    | exactly _ rest =>
        cases rest with
        | anyRun run wild rest =>
            cases rest
            exact ⟨run, by rw [List.append_nil], wild⟩
  · intro ⟨member, same, wild⟩
    subst same
    have run : Glob.Matches [.anyRun] (member ++ []) := .anyRun member wild .done
    rw [List.append_nil] at run
    exact .exactly '.' run

/-- A pattern covers what it matches as a whole, and all members of that. -/
def Covers (pattern : String) (name : List Char) : Prop :=
  (Glob.ofChars pattern.toList).Matches name ∨
    ∃ outer member, name = outer ++ '.' :: member ∧
      (Glob.ofChars pattern.toList).Matches outer ∧ ∀ c ∈ member, Glob.isWild c

theorem covers_eq_true_iff {pattern : String} {name : List Char} :
    covers pattern name = true ↔ Covers pattern name := by
  rw [covers_iff, Covers, Glob.matches_append_iff]
  apply or_congr Iff.rfl
  constructor
  · intro ⟨outer, tail, same, matched, tailed⟩
    obtain ⟨member, dotted, wild⟩ := members_matches_iff.mp tailed
    exact ⟨outer, member, dotted ▸ same, matched, wild⟩
  · intro ⟨outer, member, same, matched, wild⟩
    exact ⟨outer, '.' :: member, same, matched, members_matches_iff.mpr ⟨member, rfl, wild⟩⟩

theorem covers_iff_spells {pattern : String} {name : List Char} :
    Covers pattern name ↔
      Glob.Spells pattern.toList name ∨
        ∃ outer member, name = outer ++ '.' :: member ∧ Glob.Spells pattern.toList outer ∧
          '\n' ∉ member := by
  simp only [Covers, Glob.matches_ofChars_iff, Glob.all_isWild_iff]

theorem hides_iff {hidden : HiddenTypes} {name : String} :
    hidden.hides name = true ↔
      ∃ pattern ∈ hidden.patterns, Covers pattern (TypeSignature.erased name.toList) := by
  simp only [hides, List.any_eq_true, covers_eq_true_iff]

theorem patterns_ofPatterns (patterns : List String) :
    (ofPatterns patterns).patterns = (patterns.map Text.trimBlank).filter (· ≠ "") := by
  apply List.filter_congr
  intro pattern _
  rw [← Bool.coe_iff_coe, decide_eq_true_iff, Bool.not_eq_true', String.isEmpty_eq_false_iff]

theorem mem_ofPatterns_iff {patterns : List String} {kept : String} :
    kept ∈ (ofPatterns patterns).patterns ↔
      ∃ pattern ∈ patterns, Text.Trims pattern.toList kept.toList ∧ kept ≠ "" := by
  simp only [patterns_ofPatterns, List.mem_filter, List.mem_map, decide_eq_true_iff,
    Text.trimBlank_eq_iff]
  constructor
  · intro ⟨⟨pattern, given, same⟩, filled⟩
    exact ⟨pattern, given, same, filled⟩
  · intro ⟨pattern, given, same, filled⟩
    exact ⟨⟨pattern, given, same⟩, filled⟩

theorem mem_withoutImported_iff {hidden : HiddenTypes} {imports : List String}
    {pattern : String} :
    pattern ∈ (hidden.withoutImported imports).patterns ↔
      pattern ∈ hidden.patterns ∧ ∀ name ∈ imports, ¬ Covers pattern name.toList := by
  simp only [withoutImported, List.mem_filter, Bool.not_eq_true', List.any_eq_false,
    covers_eq_true_iff]

/-- The patterns are kept in their order, without the blanks at their ends, unless nothing
is left of them. A name is hidden if, up to its first type argument, it or an outer name of
it can be cut into pieces for the characters of a kept pattern: a run without line feed for
a star, one other character for a question mark, and for any other character itself. -/
theorem hides_ofPatterns_iff (patterns : List String) :
    let hidden := ofPatterns patterns
    ∃ cores : List String,
      List.Forall₂ (fun pattern core => Text.Trims pattern.toList core.toList) patterns cores ∧
      hidden.patterns = cores.filter (· ≠ "") ∧
      ∀ query : String,
        let name := query.toList.takeWhile (· != '<')
        hidden.hides query = true ↔
          ∃ core ∈ cores, core ≠ "" ∧
            (Glob.Spells core.toList name ∨
              ∃ outer member, name = outer ++ '.' :: member ∧ Glob.Spells core.toList outer ∧
                '\n' ∉ member) := by
  intro hidden
  have kept : hidden.patterns = (patterns.map Text.trimBlank).filter (· ≠ "") :=
    patterns_ofPatterns patterns
  refine ⟨patterns.map Text.trimBlank, ?_, kept, ?_⟩
  · rw [List.forall₂_map_right_iff, List.forall₂_same]
    intro pattern _
    exact Text.trimBlank_eq_iff.mp rfl
  · intro query name
    have erased : TypeSignature.erased query.toList = name := rfl
    simp only [hides_iff, kept, erased, covers_iff_spells, List.mem_filter, decide_eq_true_iff,
      and_assoc]

example : (ofPatterns [" sun.?*s "]).hides "sun.tools.Jar<T>" = true := by decide +kernel

end HiddenTypes

end ContentAssist
