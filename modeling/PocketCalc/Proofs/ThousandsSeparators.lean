import PocketCalc.Display.Grouping
import PocketCalc.Proofs.DecimalText
import Mathlib.Data.List.DropRight

/-! Separators cut the whole part of a numeral into groups of three digits, counted from the
right, and change nothing else. The digits are gone through from the left: how many of them are
still to come tells whether a group ends here. -/

namespace PocketCalc

private theorem mem_groupDigits {digits : List Char} {character : Char}
    (member : character ∈ groupDigits digits) : character ∈ digits ∨ character = ',' := by
  induction digits with
  | nil => cases member
  | cons digit rest ih =>
    rw [groupDigits] at member
    split at member <;> simp only [List.mem_cons] at member ⊢
    · rcases member with rfl | rfl | later
      · exact .inl (.inl rfl)
      · exact .inr rfl
      · exact (ih later).imp_left .inr
    · rcases member with rfl | later
      · exact .inl (.inl rfl)
      · exact (ih later).imp_left .inr

private theorem mem_groupWhole {numeral : List Char} {character : Char}
    (member : character ∈ groupWhole numeral) : character ∈ numeral ∨ character = ',' := by
  rcases List.mem_append.mp member with whole | fraction
  · exact (mem_groupDigits whole).imp_left fun taken => (List.takeWhile_subset _) taken
  · exact .inl ((List.dropWhile_subset _) fraction)

theorem mem_groupThousands {text : List Char} {character : Char}
    (member : character ∈ groupThousands text) : character ∈ text ∨ character = ',' := by
  unfold groupThousands at member
  split at member
  · rcases List.mem_cons.mp member with rfl | later
    · exact .inl List.mem_cons_self
    · exact (mem_groupWhole later).imp_left (List.mem_cons_of_mem _)
  · exact mem_groupWhole member

private theorem filter_groupDigits (digits : List Char) :
    (groupDigits digits).filter (· != ',') = digits.filter (· != ',') := by
  induction digits with
  | nil => rfl
  | cons digit rest ih =>
    rw [groupDigits]
    split <;> simp [List.filter_cons, ih]

private theorem filter_groupWhole (numeral : List Char) :
    (groupWhole numeral).filter (· != ',') = numeral.filter (· != ',') := by
  rw [groupWhole, List.filter_append, filter_groupDigits, ← List.filter_append,
    List.takeWhile_append_dropWhile]

theorem filter_groupThousands (text : List Char) :
    (groupThousands text).filter (· != ',') = text.filter (· != ',') := by
  unfold groupThousands
  split
  · rw [List.filter_cons_of_pos (by decide), List.filter_cons_of_pos (by decide), filter_groupWhole]
  · rw [filter_groupWhole]

private theorem dropWhile_groupWhole (numeral : List Char) :
    (groupWhole numeral).dropWhile (· != '.') = numeral.dropWhile (· != '.') := by
  have before : ∀ character ∈ groupDigits (numeral.takeWhile (· != '.')),
      (character != '.') = true := by
    intro character member
    rcases mem_groupDigits member with taken | rfl
    · exact List.mem_takeWhile_imp (p := (· != '.')) taken
    · rfl
  rw [groupWhole, List.dropWhile_append_of_pos before, List.dropWhile_idempotent]

/-- The separators stand before the point. -/
theorem dropWhile_groupThousands (text : List Char) :
    (groupThousands text).dropWhile (· != '.') = text.dropWhile (· != '.') := by
  unfold groupThousands
  split
  · rw [List.dropWhile_cons_of_pos (by decide), List.dropWhile_cons_of_pos (by decide),
      dropWhile_groupWhole]
  · rw [dropWhile_groupWhole]

theorem Numeral.Spells.ne_comma {numeral : Numeral} {text : List Char}
    (spells : numeral.Spells text) : ∀ character ∈ text, character ≠ ',' := by
  rintro _ member rfl
  rcases spells.characters ',' member with digit | mark <;> contradiction

theorem Numeral.Spells.withoutCommas {numeral : Numeral} {text : List Char}
    (spells : numeral.Spells text) (negative : Bool) :
    (withMinus negative text).filter (· != ',') = withMinus negative text := by
  rw [List.filter_eq_self]
  intro character member
  exact bne_iff_ne.mpr (forall_mem_withMinus (by decide) spells.ne_comma negative character member)

/-- Digits cut into groups of three from the right. What is left over is the first group. -/
structure Groups (digits first : List Char) (later : List (List Char)) : Prop where
  joined : digits = first ++ later.flatten
  present : first ≠ []
  short : first.length ≤ 3
  threes : ∀ group ∈ later, group.length = 3

/-- The groups of some digits with a comma between any two. -/
def Separates (digits text : List Char) : Prop :=
  ∃ first later, Groups digits first later ∧ text = [','].intercalate (first :: later)

section
variable {digits text first : List Char} {later : List (List Char)}

private theorem groupDigits_of_short (short : digits.length ≤ 3) : groupDigits digits = digits := by
  induction digits with
  | nil => rfl
  | cons digit rest ih =>
    rw [List.length_cons] at short
    have incomplete : ¬ (rest ≠ [] ∧ rest.length % 3 = 0) := by
      rintro ⟨some, complete⟩
      have positive := List.length_pos_iff.mpr some
      omega
    rw [groupDigits, if_neg incomplete, ih (by omega)]

/-- Whole groups at the end do not change how the digits in front of them are grouped. -/
theorem groupDigits_append (present : digits ≠ []) {groups : List Char} (some : groups ≠ [])
    (complete : groups.length % 3 = 0) :
    groupDigits (digits ++ groups) = groupDigits digits ++ ',' :: groupDigits groups := by
  induction digits with
  | nil => contradiction
  | cons digit rest ih =>
    rcases eq_or_ne rest [] with rfl | more
    · rw [List.singleton_append, groupDigits, if_pos ⟨some, complete⟩]
      rfl
    · have same : (rest ++ groups).length % 3 = rest.length % 3 := by
        rw [List.length_append]
        omega
      have longer : rest ++ groups ≠ [] := List.append_ne_nil_of_left_ne_nil more groups
      rw [List.cons_append, groupDigits, groupDigits, ih more, same]
      by_cases ends : rest.length % 3 = 0
      · rw [if_pos ⟨longer, ends⟩, if_pos ⟨more, ends⟩]
        rfl
      · rw [if_neg (ends ·.2), if_neg (ends ·.2)]
        rfl

private theorem length_flatten_mod_three (threes : ∀ group ∈ later, group.length = 3) :
    later.flatten.length % 3 = 0 := by
  induction later with
  | nil => rfl
  | cons group later ih =>
    obtain ⟨three, threes⟩ := List.forall_mem_cons.mp threes
    rw [List.flatten_cons, List.length_append, three, Nat.add_mod_left, ih threes]

theorem Groups.groupDigits_eq (groups : Groups digits first later) :
    groupDigits digits = [','].intercalate (first :: later) := by
  obtain ⟨rfl, present, short, threes⟩ := groups
  induction later generalizing first with
  | nil =>
    rw [List.flatten_nil, List.append_nil, groupDigits_of_short short, List.intercalate_singleton]
  | cons group later ih =>
    have complete := length_flatten_mod_three threes
    obtain ⟨three, threes⟩ := List.forall_mem_cons.mp threes
    have some : group ≠ [] := List.ne_nil_of_length_pos (by omega)
    have more : (group :: later).flatten ≠ [] := by
      rw [List.flatten_cons]
      exact List.append_ne_nil_of_left_ne_nil some _
    rw [groupDigits_append present more complete, groupDigits_of_short short, List.flatten_cons,
      ih some three.le threes, List.intercalate_cons_cons, List.append_assoc, List.singleton_append]

/-- The last three digits are a group if there are more in front of them. -/
theorem exists_groups {digits : List Char} (present : digits ≠ []) :
    ∃ first later, Groups digits first later := by
  rcases Nat.lt_or_ge 3 digits.length with long | short
  · have some : digits.take (digits.length - 3) ≠ [] := by
      apply List.ne_nil_of_length_pos
      rw [List.length_take]
      omega
    obtain ⟨first, later, groups⟩ := exists_groups some
    refine ⟨first, later ++ [digits.drop (digits.length - 3)], ?_, groups.present, groups.short, ?_⟩
    · rw [List.flatten_concat, ← List.append_assoc, ← groups.joined, List.take_append_drop]
    · refine List.forall_mem_append.mpr ⟨groups.threes, List.forall_mem_singleton.mpr ?_⟩
      rw [List.length_drop]
      omega
  · exact ⟨digits, [], (List.append_nil digits).symm, present, short, List.forall_mem_nil _⟩
termination_by digits.length

theorem separates_groupDigits (present : digits ≠ []) : Separates digits (groupDigits digits) := by
  obtain ⟨first, later, groups⟩ := exists_groups present
  exact ⟨first, later, groups, groups.groupDigits_eq⟩

/-- There is one way to separate digits. -/
theorem Separates.eq_groupDigits (separates : Separates digits text) : text = groupDigits digits := by
  obtain ⟨first, later, groups, rfl⟩ := separates
  exact groups.groupDigits_eq.symm

private theorem Groups.splitOn_eq (groups : Groups digits first later) (none : ',' ∉ digits) :
    ([','].intercalate (first :: later)).splitOn ',' = first :: later := by
  refine List.splitOn_intercalate _ ?_ (List.cons_ne_nil first later)
  intro group member comma
  apply none
  rw [groups.joined]
  rcases List.mem_cons.mp member with rfl | member
  · exact List.mem_append_left _ comma
  · exact List.mem_append_right _ (List.mem_flatten_of_mem member comma)

private theorem Groups.nil_notMem (groups : Groups digits first later) : [] ∉ first :: later := by
  intro member
  rcases List.mem_cons.mp member with empty | member
  · exact groups.present empty.symm
  · have three := groups.threes [] member
    contradiction

private theorem nil_mem_splitOn (text : List Char) : [] ∈ (',' :: text).splitOn ',' := by
  rw [← List.nil_append (',' :: text), List.splitOn_append_cons_self, List.splitOn_nil]
  exact List.mem_append_left _ (List.mem_singleton_self [])

/-- A comma at either end, or one behind another, would be next to an empty group. -/
theorem Separates.between (separates : Separates digits text) (none : ',' ∉ digits) :
    text.head? ≠ some ',' ∧ text.getLast? ≠ some ',' ∧ ¬ [',', ','] <:+: text := by
  have solid : [] ∉ text.splitOn ',' := by
    obtain ⟨first, later, groups, rfl⟩ := separates
    rw [groups.splitOn_eq none]
    exact groups.nil_notMem
  refine ⟨fun leading => solid ?_, fun trailing => solid ?_, fun doubled => solid ?_⟩
  · obtain ⟨after, rfl⟩ := List.head?_eq_some_iff.mp leading
    exact nil_mem_splitOn after
  · obtain ⟨before, rfl⟩ := List.getLast?_eq_some_iff.mp trailing
    rw [List.splitOn_append_cons_self, List.splitOn_nil]
    exact List.mem_append_right _ (List.mem_singleton_self [])
  · obtain ⟨before, after, rfl⟩ := doubled
    rw [List.append_assoc, List.cons_append, List.splitOn_append_cons_self]
    exact List.mem_append_right _ (nil_mem_splitOn after)

end

section
variable {whole pointed : List Char} {fraction : Option (List Char)}

private theorem groupWhole_append (digital : Numeral.Digits whole)
    (fractional : Numeral.SpellsFraction fraction pointed) :
    groupWhole (whole ++ pointed) = groupDigits whole ++ pointed := by
  have before : ∀ digit ∈ whole, (digit != '.') = true := by
    intro digit member
    rw [bne_iff_ne]
    rintro rfl
    have point := digital '.' member
    contradiction
  rw [groupWhole, List.takeWhile_append_of_pos before, List.dropWhile_append_of_pos before]
  cases fractional <;> simp

/-- The sign is not counted and the fraction is left alone. -/
theorem groupThousands_numeral (present : whole ≠ []) (digital : Numeral.Digits whole)
    (fractional : Numeral.SpellsFraction fraction pointed) (negative : Bool) :
    groupThousands (withMinus negative (whole ++ pointed)) =
      withMinus negative (groupDigits whole ++ pointed) := by
  rw [← groupWhole_append digital fractional]
  cases negative with
  | true => rfl
  | false =>
    obtain ⟨first, others, rfl⟩ := List.exists_cons_of_ne_nil present
    rw [withMinus, withMinus, if_neg Bool.false_ne_true, if_neg Bool.false_ne_true, groupThousands]
    rintro rest ⟨⟩
    have minus := digital '-' List.mem_cons_self
    contradiction

end

/-- A numeral of any length without an exponent is itself again without its separators. These
stand in its whole part alone and cut it into groups of three digits, but for a first group of one
to three, so that every one of them stands between two groups. There is no other way to do so. -/
theorem thousands_are_separated (negative : Bool) {whole pointed : List Char}
    {fraction : Option (List Char)} (present : whole ≠ []) (digital : Numeral.Digits whole)
    (fractional : Numeral.SpellsFraction fraction pointed) :
    let text := withMinus negative (whole ++ pointed)
    (groupThousands text).filter (· != ',') = text ∧ ',' ∉ pointed ∧
    ∃ separated, groupThousands text = withMinus negative (separated ++ pointed) ∧
      Separates whole separated ∧ (∀ other, Separates whole other → other = separated) ∧
      separated.head? ≠ some ',' ∧ separated.getLast? ≠ some ',' ∧
      ¬ [',', ','] <:+: separated := by
  intro text
  have spells : Numeral.Spells ⟨whole, fraction, none⟩ (whole ++ pointed) := by
    rw [← List.append_nil pointed]
    exact .parts digital fractional (List.append_ne_nil_of_left_ne_nil present _) .absent
  have plain {part : List Char} (inside : part ⊆ whole ++ pointed) : ',' ∉ part :=
    fun comma => spells.ne_comma ',' (inside comma) rfl
  have separates := separates_groupDigits present
  refine ⟨?_, plain (List.subset_append_right _ _), groupDigits whole,
    groupThousands_numeral present digital fractional negative, separates,
    fun _ other => other.eq_groupDigits, separates.between (plain (List.subset_append_left _ _))⟩
  rw [filter_groupThousands, spells.withoutCommas]

/-- Neither a sign nor a point that no digits follow counts as a digit. -/
theorem thousands_are_separated_behind_a_minus :
    let whole := ['1', '2', '3', '4', '5', '6', '7']
    whole ≠ [] ∧ Numeral.Digits whole ∧ Numeral.SpellsFraction (some []) ['.'] ∧
    groupThousands (withMinus true (whole ++ ['.'])) = "-1,234,567.".toList := by
  intro whole
  have present : whole ≠ [] := List.cons_ne_nil _ _
  have digital : Numeral.Digits whole := List.all_eq_true.mp (by decide)
  have fractional : Numeral.SpellsFraction (some []) ['.'] := .point (List.forall_mem_nil _)
  have separates : Separates whole "1,234,567".toList :=
    ⟨['1'], [['2', '3', '4'], ['5', '6', '7']], ⟨rfl, by decide, by decide, by decide⟩, rfl⟩
  obtain ⟨-, -, separated, grouped, -, only, -⟩ :=
    thousands_are_separated true present digital fractional
  obtain rfl := only _ separates
  exact ⟨present, digital, fractional, grouped⟩

end PocketCalc
