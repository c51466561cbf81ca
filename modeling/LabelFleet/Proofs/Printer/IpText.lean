import LabelFleet.Proofs.Printer.Groups

/-! An internet address is read back from its canonical text. The two versions cannot be mistaken
for each other: one has no colon in its text, the other has two at least. -/
namespace LabelFleet.Ip

variable {s rest : List Char} {ip : Ip}

/-! ### Colons -/

theorem append_of_group? {g : UInt16} (h : group? s = some (g, rest)) : ∃ ds, s = ds ++ rest := by
  rw [group?] at h
  split_ifs at h
  obtain ⟨-, rfl⟩ := Prod.mk.inj (Option.some.inj h)
  exact ⟨_, (List.takeWhile_append_dropWhile).symm⟩

theorem append_of_char? {c : Char} (h : Text.char? c s = some rest) : s = c :: rest :=
  Text.after?_eq_some_iff.mp h

/-- A colon stands between two groups, though the last two may be octets. -/
theorem length_le_of_readGroups {first : Bool} {room : Nat} {gs : List UInt16} {octets : Bool}
    (h : readGroups first room s = (gs, octets, rest)) : ∃ front, s = front ++ rest ∧
      gs.length ≤ front.count ':' + if first then 2 else 1 := by
  -- Each group that is read passes the colon in front of it; only the first one has none.
  induction room generalizing first s gs octets rest with
  | zero =>
    cases h
    exact ⟨[], rfl, Nat.zero_le _⟩
  | succ room ih =>
    rw [readGroups] at h
    split at h
    · cases h
      exact ⟨[], rfl, Nat.zero_le _⟩
    next t hnext =>
    have hlead : s = lead first t := by
      cases first with
      | true => exact Option.some.inj hnext
      | false => exact append_of_char? hnext
    split at h
    · next a b c d rest' hoctets =>
      cases h
      split_ifs at hoctets
      rw [hlead, eq_of_octets? hoctets]
      refine ⟨lead first (Ip.octets a b c d), ?_, ?_⟩
      · cases first <;> rfl
      · cases first <;> simp [lead, pairOfOctets]
    · split at h
      · cases h
        exact ⟨[], rfl, Nat.zero_le _⟩
      · next g t' hgroup =>
        cases h
        obtain ⟨ds, rfl⟩ := append_of_group? hgroup
        have hrest : readGroups false room t' = ((readGroups false room t').1,
          (readGroups false room t').2.1, (readGroups false room t').2.2) := rfl
        obtain ⟨front, hfront, hlength⟩ := ih hrest
        rw [if_neg Bool.false_ne_true] at hlength
        refine ⟨lead first (ds ++ front), ?_, ?_⟩
        · rw [hlead]
          conv_lhs => rw [hfront]
          cases first <;> simp [lead]
        · rw [List.length_cons]
          cases first <;> simp [lead] <;> omega

theorem two_le_count_of_readV6 (h : readV6 s = some (ip, rest)) : 2 ≤ s.count ':' := by
  rcases readV6_cases h with ⟨gs, octets, hall, hgroups, -⟩ | ⟨front, -, -, t, -, hfront, -⟩
  · obtain ⟨text, rfl, hlength⟩ := length_le_of_readGroups hgroups
    rw [hall, if_pos rfl] at hlength
    rw [List.count_append]
    omega
  · obtain ⟨text, rfl, -⟩ := length_le_of_readGroups hfront
    rw [List.count_append, List.count_cons_self, List.count_cons_self]
    omega

theorem colon_mem_of_readV6 (h : readV6 s = some (ip, rest)) : ':' ∈ s := by
  have := two_le_count_of_readV6 h
  exact List.count_pos_iff.mp (by omega)

/-! ### Whole texts -/

theorem whole_eq_some_iff {α : Type} {o : Option (α × List Char)} {a : α} :
    whole o = some a ↔ o = some (a, []) := by
  rcases o with _ | ⟨b, _ | ⟨c, s⟩⟩ <;> simp [whole]

theorem readV4_eq_some_iff : readV4 s = some (ip, rest) ↔
    ∃ a b c d, octets? s = some ((a, b, c, d), rest) ∧ ip = v4 a b c d := by
  rw [readV4]
  simp only [Option.bind_eq_bind, Option.bind_eq_some_iff, Prod.exists]
  constructor
  · rintro ⟨a, b, c, d, s, hread, h⟩
    cases h
    exact ⟨a, b, c, d, hread, rfl⟩
  · rintro ⟨a, b, c, d, hread, rfl⟩
    exact ⟨a, b, c, d, rest, hread, rfl⟩

theorem colon_not_mem_octets (a b c d : UInt8) : ':' ∉ octets a b c d := by
  intro h
  rcases mem_octets h with h | h <;> contradiction

/-- The text of an address of version 4 has no colon. -/
theorem whole_readV4_of_colon (h : ':' ∈ s) : whole (readV4 s) = none := by
  rw [Option.eq_none_iff_forall_ne_some]
  intro ip hip
  obtain ⟨a, b, c, d, hread, -⟩ := readV4_eq_some_iff.mp (whole_eq_some_iff.mp hip)
  rw [eq_of_octets? hread, List.append_nil] at h
  exact colon_not_mem_octets a b c d h

/-- What is an address without a colon, and what is one with a colon. -/
theorem parse?_cases (h : parse? s = some ip) :
    (∃ a b c d, s = octets a b c d ∧ ip = v4 a b c d) ∨ readV6 s = some (ip, []) := by
  rw [parse?, Option.or_eq_some_iff] at h
  rcases h with h | ⟨-, h⟩
  · obtain ⟨a, b, c, d, hread, rfl⟩ := readV4_eq_some_iff.mp (whole_eq_some_iff.mp h)
    exact .inl ⟨a, b, c, d, by rw [eq_of_octets? hread, List.append_nil], rfl⟩
  · exact .inr (whole_eq_some_iff.mp h)

theorem text_v4 (a b c d : UInt8) : (v4 a b c d).text = octets a b c d := rfl

theorem parse?_octets (a b c d : UInt8) : parse? (octets a b c d) = some (v4 a b c d) := by
  have hwhole : whole (readV4 (octets a b c d)) = some (v4 a b c d) :=
    whole_eq_some_iff.mpr (readV4_eq_some_iff.mpr ⟨a, b, c, d, octets?_octets_nil a b c d, rfl⟩)
  rw [parse?, hwhole, Option.some_or]

theorem parse?_of_readV6 (h : readV6 s = some (ip, [])) : parse? s = some ip := by
  rw [parse?, whole_readV4_of_colon (colon_mem_of_readV6 h), Option.none_or,
    whole_eq_some_iff.mpr h]

/-- An address is read back from its canonical text. -/
theorem parse?_text (ip : Ip) : parse? ip.text = some ip := by
  cases ip with
  | v4 a b c d => exact parse?_octets a b c d
  | v6 gs h => exact parse?_of_readV6 (readV6_text gs h)

end LabelFleet.Ip
