import LabelFleet.Proofs.Number.Hexadecimals
import LabelFleet.Proofs.Printer.Octets

/-! Addresses of version 6 are read back from their text: groups with colons between them, without
the zeros for which a pair of colons stands. Of all runs of zeros the canonical text leaves out the
first of the longest. -/
namespace LabelFleet.Ip

variable {s t rest : List Char} {ip : Ip}

/-! ### One group -/

theorem isDigit_hex {c : Char} (h : c.isDigit = true) : Hex.isDigit c = true := by
  rw [Hex.isDigit, Hex.value?, if_pos h]
  rfl

theorem group?_group (g : UInt16) (h : ∀ c ∈ rest.head?, Hex.isDigit c = false) :
    group? (group g ++ rest) = some (g, rest) := by
  have hds : ∀ c ∈ group g, Hex.isDigit c = true := fun c hc => Hex.isDigit_of_mem_ofNat hc
  have hlength : (group g).length ≤ 4 := Hex.length_ofNat_le g.toNat_lt
  rw [group?, Text.takeWhile_append_stop hds h, Text.dropWhile_append_stop hds h,
    if_neg, group, Hex.inBase_ofNat, UInt16.ofNat_toNat]
  rintro (hnil | hlong)
  · exact Hex.ofNat_ne_nil _ (List.isEmpty_iff.mp hnil)
  · omega

/-- What begins as a group in front of a colon is no octet. -/
theorem octets?_group (g : UInt16) (h : ∀ c ∈ rest.head?, c = ':') :
    octets? (group g ++ rest) = none := by
  rw [Option.eq_none_iff_forall_ne_some]
  rintro ⟨⟨a, b, c, d⟩, t⟩ hoctets
  -- Octets have a point behind the first digits, where the group has a colon.
  have hsplit := eq_of_octets? hoctets
  rw [octets_append] at hsplit
  have hgroup : ∀ c ∈ group g, Hex.isDigit c = true := fun c hc => Hex.isDigit_of_mem_ofNat hc
  have hoctet : ∀ c ∈ Digits.ofNat a.toNat, Hex.isDigit c = true :=
    fun c hc => isDigit_hex (Digits.isDigit_of_mem_ofNat hc)
  have hrest := congrArg (List.dropWhile Hex.isDigit) hsplit
  rw [Text.dropWhile_append_stop hgroup (by intro c hc; rw [h c hc]; decide),
    Text.dropWhile_append_stop hoctet (by intro c hc; rw [← Option.some.inj hc]; decide)] at hrest
  rw [hrest] at h
  exact absurd (h '.' rfl) (by decide)

/-- Neither a group nor octets begin with a colon. -/
theorem group?_of_colon (h : ∀ c ∈ t.head?, c = ':') : group? t = none := by
  cases t with
  | nil => rfl
  | cons c t =>
    rw [h c rfl]
    rfl

theorem octets?_of_colon (h : ∀ c ∈ t.head?, c = ':') : octets? t = none := by
  cases t with
  | nil => rfl
  | cons c t =>
    rw [h c rfl]
    rfl

/-! ### Groups with colons between them -/

/-- What is read as the next group: all but the first one follow a colon. -/
def lead (first : Bool) (t : List Char) : List Char := if first then t else ':' :: t

theorem readGroups_lead (first : Bool) {g : UInt16} (room : Nat) (hoctets : octets? t = none)
    (hgroup : group? t = some (g, rest)) : readGroups first (room + 1) (lead first t) =
      (g :: (readGroups false room rest).1, (readGroups false room rest).2) := by
  have hnext : (if first then some (lead first t) else Text.char? ':' (lead first t)) = some t := by
    cases first <;> rfl
  rw [readGroups, hnext]
  simp only [hoctets, ite_self, hgroup]

theorem readGroups_of_colon (first : Bool) (room : Nat) (h : ∀ c ∈ t.head?, c = ':') :
    readGroups first room (lead first t) = ([], false, lead first t) := by
  have hnext : (if first then some (lead first t) else Text.char? ':' (lead first t)) = some t := by
    cases first <;> rfl
  cases room with
  | zero => rfl
  | succ room =>
    rw [readGroups, hnext]
    simp only [octets?_of_colon h, ite_self, group?_of_colon h]

theorem readGroups_nil (first : Bool) (room : Nat) :
    readGroups first room [] = ([], false, []) := by
  cases first with
  | true => exact readGroups_of_colon true room (by simp)
  | false => cases room <;> rfl

theorem groupsText_cons (g : UInt16) (gs : List UInt16) :
    groupsText (g :: gs) = group g ++ gs.flatMap fun g => ':' :: group g := by
  induction gs generalizing g with
  | nil => exact (List.append_nil _).symm
  | cons g' gs ih =>
    rw [groupsText, ih, List.flatMap_cons, List.cons_append]
    exact List.cons_ne_nil g' gs

/-- No further group can stand here: the text is at its end or at a pair of colons. -/
def GroupsEnd (rest : List Char) : Prop := rest = [] ∨ ∃ u, rest = ':' :: ':' :: u

theorem GroupsEnd.eq_colon (h : GroupsEnd rest) : ∀ c ∈ rest.head?, c = ':' := by
  rcases h with rfl | ⟨u, rfl⟩ <;> simp

theorem GroupsEnd.readGroups_eq (h : GroupsEnd rest) (room : Nat) :
    readGroups false room rest = ([], false, rest) := by
  rcases h with rfl | ⟨u, rfl⟩
  · exact readGroups_nil false room
  · exact readGroups_of_colon false room (t := ':' :: u) (by simp)

/-- A group is read in front of those that are read after it. -/
theorem readGroups_cons (first : Bool) (g : UInt16) {gs : List UInt16} {room : Nat}
    (hrest : GroupsEnd rest)
    (hread : readGroups false room ((gs.flatMap fun g => ':' :: group g) ++ rest) =
      (gs, false, rest)) :
    readGroups first (room + 1)
      (lead first (group g ++ ((gs.flatMap fun g => ':' :: group g) ++ rest))) =
        (g :: gs, false, rest) := by
  have hnext : ∀ c ∈ ((gs.flatMap fun g => ':' :: group g) ++ rest).head?, c = ':' := by
    cases gs with
    | nil => exact hrest.eq_colon
    | cons g' gs => simp
  have hstop : ∀ c ∈ ((gs.flatMap fun g => ':' :: group g) ++ rest).head?,
      Hex.isDigit c = false := by
    intro c hc
    rw [hnext c hc]
    rfl
  rw [readGroups_lead first room (octets?_group g hnext) (group?_group g hstop), hread]

theorem readGroups_flatMap {gs : List UInt16} {room : Nat} (hroom : gs.length ≤ room)
    (hrest : GroupsEnd rest) :
    readGroups false room ((gs.flatMap fun g => ':' :: group g) ++ rest) = (gs, false, rest) := by
  induction gs generalizing room with
  | nil => exact hrest.readGroups_eq room
  | cons g gs ih =>
    obtain ⟨room, rfl⟩ := Nat.exists_eq_add_one_of_ne_zero (Nat.ne_of_gt (Nat.zero_lt_of_lt hroom))
    rw [List.length_cons] at hroom
    rw [List.flatMap_cons, List.append_assoc, List.cons_append]
    exact readGroups_cons false g hrest (ih (by omega))

/-- Groups with colons between them are read up to where no other can stand. -/
theorem readGroups_groupsText {gs : List UInt16} {room : Nat} (hroom : gs.length ≤ room)
    (hrest : GroupsEnd rest) :
    readGroups true room (groupsText gs ++ rest) = (gs, false, rest) := by
  cases gs with
  | nil => exact readGroups_of_colon true room hrest.eq_colon
  | cons g gs =>
    obtain ⟨room, rfl⟩ := Nat.exists_eq_add_one_of_ne_zero (Nat.ne_of_gt (Nat.zero_lt_of_lt hroom))
    rw [List.length_cons] at hroom
    rw [groupsText_cons, List.append_assoc]
    exact readGroups_cons true g hrest (readGroups_flatMap (by omega) hrest)

theorem readGroups_groupsText_nil {gs : List UInt16} {room : Nat} (hroom : gs.length ≤ room) :
    readGroups true room (groupsText gs) = (gs, false, []) := by
  have hread : readGroups true room (groupsText gs ++ []) = (gs, false, []) :=
    readGroups_groupsText hroom (.inl rfl)
  rwa [List.append_nil] at hread

/-! ### Runs of zeros -/

theorem leadingZeros_le (gs : List UInt16) : leadingZeros gs ≤ gs.length := by
  induction gs with
  | nil => exact Nat.le_refl 0
  | cons g gs ih =>
    rw [leadingZeros, List.length_cons]
    split <;> omega

theorem take_leadingZeros (gs : List UInt16) :
    gs.take (leadingZeros gs) = List.replicate (leadingZeros gs) 0 := by
  induction gs with
  | nil => rfl
  | cons g gs ih =>
    rw [leadingZeros]
    split
    · next h => rw [List.take_succ_cons, ih, h, List.replicate_succ]
    · rfl

theorem le_leadingZeros (n : ℕ) (gs : List UInt16) :
    n ≤ leadingZeros (List.replicate n 0 ++ gs) := by
  induction n with
  | zero => exact Nat.zero_le _
  | succ n ih =>
    rw [List.replicate_succ, List.cons_append, leadingZeros, if_pos rfl]
    exact Nat.succ_le_succ ih

theorem longestZeros_le (gs : List UInt16) :
    (longestZeros gs).1 + (longestZeros gs).2 ≤ gs.length := by
  induction gs with
  | nil => exact Nat.le_refl 0
  | cons g gs ih =>
    have hhere := leadingZeros_le (g :: gs)
    rw [longestZeros]
    dsimp only
    split
    · omega
    · rw [List.length_cons]
      omega

/-- The longest run is one of zeros. -/
theorem take_drop_longestZeros (gs : List UInt16) :
    (gs.drop (longestZeros gs).1).take (longestZeros gs).2 =
      List.replicate (longestZeros gs).2 0 := by
  induction gs with
  | nil => rfl
  | cons g gs ih =>
    rw [longestZeros]
    dsimp only
    split
    · exact take_leadingZeros (g :: gs)
    · exact ih

/-- No run of zeros is longer than the one that is left out, and none in front of it is as long. -/
theorem leadingZeros_drop_longestZeros (gs : List UInt16) (i : ℕ) :
    leadingZeros (gs.drop i) ≤ (longestZeros gs).2 ∧
      (i < (longestZeros gs).1 → leadingZeros (gs.drop i) < (longestZeros gs).2) := by
  induction gs generalizing i with
  | nil => simp [leadingZeros, longestZeros]
  | cons g gs ih =>
    rw [longestZeros]
    dsimp only
    cases i with
    | zero =>
      rw [List.drop_zero]
      split
      · exact ⟨Nat.le_refl _, fun hi => absurd hi (Nat.not_lt_zero _)⟩
      · exact ⟨by omega, fun _ => by omega⟩
    | succ i =>
      have hlater := ih i
      rw [List.drop_succ_cons]
      split
      · exact ⟨by omega, fun hi => absurd hi (Nat.not_lt_zero _)⟩
      · exact ⟨hlater.1, fun hi => hlater.2 (Nat.lt_of_succ_lt_succ hi)⟩

/-- The zeros that a pair of colons stands for make up the groups with what is around them. -/
theorem take_append_zeros_append_drop (gs : List UInt16) :
    gs.take (longestZeros gs).1 ++ List.replicate (longestZeros gs).2 0 ++
      gs.drop ((longestZeros gs).1 + (longestZeros gs).2) = gs := by
  rw [← take_drop_longestZeros, List.append_assoc, ← List.drop_drop, List.take_append_drop,
    List.take_append_drop]

/-- So many zeros stand behind the front of some groups. -/
def ZerosAfter (gs front : List UInt16) (zeros : ℕ) : Prop :=
  ∃ back, gs = front ++ List.replicate zeros 0 ++ back

theorem ZerosAfter.le_leadingZeros {gs front : List UInt16} {zeros : ℕ}
    (h : ZerosAfter gs front zeros) : zeros ≤ leadingZeros (gs.drop front.length) := by
  obtain ⟨back, rfl⟩ := h
  rw [List.append_assoc, List.drop_left]
  exact Ip.le_leadingZeros zeros back

/-- The shortest text of groups: a pair of colons stands for the first of the longest runs of zeros,
unless no two zeros stand together. -/
inductive Shortened (gs : List UInt16) : List Char → Prop
  | all (lone : ∀ front zeros, ZerosAfter gs front zeros → zeros ≤ 1) : Shortened gs (groupsText gs)
  | pair (front back : List UInt16) (zeros : ℕ)
    (parts : gs = front ++ List.replicate zeros 0 ++ back) (several : 1 < zeros)
    (longest : ∀ front' zeros', ZerosAfter gs front' zeros' → zeros' ≤ zeros)
    (first : ∀ front' zeros', ZerosAfter gs front' zeros' → front'.length < front.length →
      zeros' < zeros) :
    Shortened gs (groupsText front ++ ':' :: ':' :: groupsText back)

/-- What an address looks like in its canonical text. -/
inductive Written : Ip → List Char → Prop
  | v4 (a b c d : UInt8) : Written (v4 a b c d) (octets a b c d)
  | mapped (g h : UInt16) : Written (v6 [0, 0, 0, 0, 0, 0xffff, g, h] rfl)
    ("::ffff:".toList ++ octets (g >>> 8).toUInt8 g.toUInt8 (h >>> 8).toUInt8 h.toUInt8)
  | v6 {gs : List UInt16} (length_eq : gs.length = 8) {text : List Char}
    (plain : gs.take 6 ≠ [0, 0, 0, 0, 0, 0xffff]) (shortened : Shortened gs text) :
    Written (v6 gs length_eq) text

theorem shortened_longestZeros (gs : List UInt16) : Shortened gs
    (if 1 < (longestZeros gs).2 then
      groupsText (gs.take (longestZeros gs).1) ++
        ':' :: ':' :: groupsText (gs.drop ((longestZeros gs).1 + (longestZeros gs).2))
    else groupsText gs) := by
  have hrun {front : List UInt16} {zeros : ℕ} (h : ZerosAfter gs front zeros) :=
    leadingZeros_drop_longestZeros gs front.length
  split
  · next several =>
    refine .pair _ _ _ (take_append_zeros_append_drop gs).symm several ?_ ?_
    · intro front zeros h
      exact h.le_leadingZeros.trans (hrun h).1
    · intro front zeros h hfront
      rw [List.length_take] at hfront
      exact h.le_leadingZeros.trans_lt ((hrun h).2 (by omega))
  · refine .all fun front zeros h => ?_
    have := h.le_leadingZeros.trans (hrun h).1
    omega

theorem written_text (ip : Ip) : Written ip ip.text := by
  unfold text
  split
  · exact .v4 _ _ _ _
  · exact .mapped _ _
  · next gs h hmapped =>
    refine .v6 h ?_ (shortened_longestZeros gs)
    rintro hplain
    match gs, h with
    | [_, _, _, _, _, _, g, g'], h =>
      cases hplain
      exact hmapped g g' rfl rfl

/-! ### Eight groups -/

theorem readV6_of_groups {gs : List UInt16} {octets : Bool}
    (hread : readGroups true 8 s = (gs, octets, rest)) (h : gs.length = 8) :
    readV6 s = some (v6 gs h, rest) := by
  rw [readV6, hread]
  simp [ofGroups?, h]

/-- A pair of colons is read as the zeros that are missing. -/
theorem readV6_of_pair {front back : List UInt16} {octets : Bool}
    (hfront : readGroups true 8 s = (front, false, ':' :: ':' :: t)) (hfew : front.length ≠ 8)
    (hback : readGroups true (7 - front.length) t = (back, octets, rest))
    (h : (front ++ List.replicate (8 - front.length - back.length) 0 ++ back).length = 8) :
    readV6 s = some (v6 _ h, rest) := by
  have hpair : Text.char? ':' (':' :: ':' :: t) = some (':' :: t) := rfl
  have hcolon : Text.char? ':' (':' :: t) = some t := rfl
  rw [readV6, hfront]
  dsimp only
  rw [if_neg hfew]
  simp only [hpair, hcolon, Option.bind_eq_bind, Option.bind_some, hback, ofGroups?, dif_pos h]
  rfl

/-- There is no other way to read an address. -/
theorem readV6_cases (h : readV6 s = some (ip, rest)) :
    (∃ gs octets hlength, readGroups true 8 s = (gs, octets, rest) ∧ ip = v6 gs hlength) ∨
      ∃ front back octets t, ∃ hlength :
        (front ++ List.replicate (8 - front.length - back.length) 0 ++ back).length = 8,
        readGroups true 8 s = (front, false, ':' :: ':' :: t) ∧ front.length ≠ 8 ∧
          readGroups true (7 - front.length) t = (back, octets, rest) ∧ ip = v6 _ hlength := by
  have hgroups : ∀ {gs : List UInt16} {ip : Ip}, ofGroups? gs = some ip →
      ∃ hlength, ip = v6 gs hlength := by
    intro gs ip h
    rw [ofGroups?] at h
    split at h
    · next hlength => exact ⟨hlength, (Option.some.inj h).symm⟩
    · contradiction
  rw [readV6] at h
  obtain ⟨⟨front, octets, u⟩, hfront⟩ : ∃ r, readGroups true 8 s = r := ⟨_, rfl⟩
  rw [hfront] at h
  dsimp only at h
  split at h
  · simp only [Option.bind_eq_bind, Option.bind_eq_some_iff] at h
    obtain ⟨ip', hip, h⟩ := h
    obtain ⟨hlength, rfl⟩ := hgroups hip
    cases h
    exact .inl ⟨front, octets, hlength, hfront, rfl⟩
  · next hfew =>
    cases octets with
    | true => contradiction
    | false =>
      rw [if_neg Bool.false_ne_true] at h
      simp only [Option.bind_eq_bind, Option.bind_eq_some_iff] at h
      obtain ⟨v, hv, t, ht, ip', hip, h⟩ := h
      obtain ⟨hlength, rfl⟩ := hgroups hip
      cases h
      rw [Text.after?_eq_some_iff.mp hv, Text.after?_eq_some_iff.mp ht] at hfront
      exact .inr ⟨front, _, _, t, hlength, hfront, hfew, rfl, rfl⟩

theorem readV6_groupsText {gs : List UInt16} (h : gs.length = 8) :
    readV6 (groupsText gs) = some (v6 gs h, []) :=
  readV6_of_groups (readGroups_groupsText_nil h.le) h

/-- Groups whose longest run of zeros is left out are read back. -/
theorem readV6_leftOut {gs : List UInt16} (h : gs.length = 8) (hpair : 1 < (longestZeros gs).2) :
    readV6 (groupsText (gs.take (longestZeros gs).1) ++ ':' :: ':' ::
      groupsText (gs.drop ((longestZeros gs).1 + (longestZeros gs).2))) = some (v6 gs h, []) := by
  have hle := longestZeros_le gs
  have hall := take_append_zeros_append_drop gs
  generalize longestZeros gs = run at hpair hle hall ⊢
  obtain ⟨start, length⟩ := run
  dsimp only at hpair hle hall ⊢
  have htake : (gs.take start).length = start := by
    rw [List.length_take]
    omega
  have hdrop : (gs.drop (start + length)).length = 8 - start - length := by
    rw [List.length_drop]
    omega
  have hroom : (gs.take start).length ≤ 8 := by omega
  have hroom' : (gs.drop (start + length)).length ≤ 7 - (gs.take start).length := by omega
  have hfront := readGroups_groupsText hroom
    (.inr ⟨groupsText (gs.drop (start + length)), rfl⟩)
  have hback := readGroups_groupsText_nil hroom'
  have hzeros : 8 - (gs.take start).length - (gs.drop (start + length)).length = length := by
    omega
  have hsome : gs.take start ++
      List.replicate (8 - (gs.take start).length - (gs.drop (start + length)).length) 0 ++
        gs.drop (start + length) = gs := by
    rw [hzeros, hall]
  rw [readV6_of_pair hfront (by omega) hback (hsome.symm ▸ h)]
  congr 3

/-! ### Octets at the end -/

/-- A group is made up of its two bytes. -/
theorem or_bytes (g : UInt16) : (g >>> 8).toUInt8.toUInt16 <<< 8 ||| g.toUInt8.toUInt16 = g := by
  have hlt : g.toNat < 65536 := g.toNat_lt
  have hhigh : ((g >>> 8).toUInt8.toUInt16 <<< 8).toNat = 2 ^ 8 * (g.toNat / 256) := by
    simp [Nat.shiftRight_eq_div_pow, Nat.shiftLeft_eq]
    omega
  have hlow : g.toUInt8.toUInt16.toNat = g.toNat % 256 := by simp
  apply UInt16.toNat_inj.mp
  rw [UInt16.toNat_or, hhigh, hlow, ← Nat.two_pow_add_eq_or_of_lt (by omega)]
  omega

theorem readGroups_octets (a b c d : UInt8) (room : Nat) :
    readGroups false (room + 2) (':' :: octets a b c d) = (pairOfOctets a b c d, true, []) := by
  have hchar : Text.char? ':' (':' :: octets a b c d) = some (octets a b c d) := rfl
  rw [readGroups]
  simp only [Bool.false_eq_true, if_false, hchar, octets?_octets_nil,
    if_neg (Nat.succ_ne_zero room)]

theorem readGroups_mapped (g h : UInt16) (room : Nat) :
    readGroups true (room + 3) ("ffff:".toList ++
      octets (g >>> 8).toUInt8 g.toUInt8 (h >>> 8).toUInt8 h.toUInt8) =
        ([0xffff, g, h], true, []) := by
  have hgroup : ∀ s, group? ("ffff:".toList ++ s) = some (0xffff, ':' :: s) := fun s => rfl
  have hoctets : ∀ s, octets? ("ffff:".toList ++ s) = none := fun s => rfl
  have hread := readGroups_lead true (room + 2) (hoctets _) (hgroup
    (octets (g >>> 8).toUInt8 g.toUInt8 (h >>> 8).toUInt8 h.toUInt8))
  rw [readGroups_octets, pairOfOctets, or_bytes, or_bytes] at hread
  exact hread

/-- An address of version 6 is read back from its canonical text. -/
theorem readV6_text (gs : List UInt16) (h : gs.length = 8) :
    readV6 (v6 gs h).text = some (v6 gs h, []) := by
  unfold text
  split
  · next heq => contradiction
  -- An address of version 4 in the form of version 6 ends in octets.
  · next g g' hlength heq =>
    have hfront := readGroups_of_colon true 8 (t := "::ffff:".toList ++
      octets (g >>> 8).toUInt8 g.toUInt8 (g' >>> 8).toUInt8 g'.toUInt8) (by simp)
    cases heq
    exact readV6_of_pair hfront (by simp) (readGroups_mapped g g' 4) rfl
  · next gs hlength _ heq =>
    cases heq
    dsimp only
    split
    · next hpair => exact readV6_leftOut hlength hpair
    · exact readV6_groupsText hlength

end LabelFleet.Ip
