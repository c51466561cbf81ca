import LabelFleet.Proofs.Health.Agreement
import LabelFleet.Proofs.Text.Trimming
import Mathlib.Data.List.Forall2

/-! The names of a database. A survey lists the database that is configured under its nickname, and
the console takes the nickname for that database in any case and with blanks around it. Only the
name that is given is trimmed, though: a nickname that has blanks around it itself stands for
nothing. -/
namespace LabelFleet

/-! ### Letters -/

namespace Text

/-- The characters are equal, or they are the two cases of one ASCII letter. -/
def SameLetter (c d : Char) : Prop :=
  c = d ∨ c.isUpper = true ∧ d.toNat = c.toNat + 32 ∨ d.isUpper = true ∧ c.toNat = d.toNat + 32

instance (c d : Char) : Decidable (SameLetter c d) := inferInstanceAs (Decidable (_ ∨ _ ∨ _))

theorem toNat_toLower (c : Char) :
    c.toLower.toNat = if c.isUpper = true then c.toNat + 32 else c.toNat := by
  split
  · next h =>
    have hlower : c.toLower.toNat = (c.val + 32).toNat :=
      congrArg Char.toNat (dif_pos (of_decide_eq_true h))
    rw [isUpper_iff, ← Char.toNat_val] at h
    rw [hlower, UInt32.toNat_add, Nat.mod_eq_of_lt]
    · rfl
    · have h32 : (32 : UInt32).toNat = 32 := rfl
      omega
  · next h => exact congrArg Char.toNat (dif_neg (mt decide_eq_true h))

theorem toLower_eq_iff {c d : Char} : c.toLower = d.toLower ↔ SameLetter c d := by
  simp only [← Char.toNat_inj, toNat_toLower, SameLetter, isUpper_iff]
  split <;> split <;> omega

theorem sameLetters_iff {a b : String} :
    sameLetters a b = true ↔ a.toList.Forall₂ SameLetter b.toList := by
  rw [sameLetters, beq_iff_eq, ← List.forall₂_eq_eq_eq, List.forall₂_map_left_iff,
    List.forall₂_map_right_iff]
  simp only [toLower_eq_iff]

namespace SameLetter

@[refl] theorem refl (c : Char) : SameLetter c c := .inl rfl

theorem eq_or_isAlphanum {c d : Char} (h : SameLetter c d) :
    c = d ∨ c.isAlphanum = true ∧ d.isAlphanum = true := by
  rcases h with h | ⟨hupper, hd⟩ | ⟨hupper, hc⟩
  · exact .inl h
  all_goals
    rw [isUpper_iff] at hupper
    rw [isAlphanum_iff, isAlphanum_iff, isAlpha_iff, isAlpha_iff]
    omega

theorem isBlank_eq {c d : Char} (h : SameLetter c d) : isBlank c = isBlank d := by
  rcases h.eq_or_isAlphanum with rfl | ⟨hc, hd⟩
  · rfl
  · rw [not_isBlank_of_isAlphanum hc, not_isBlank_of_isAlphanum hd]

end SameLetter

section Spelling

variable {s t : List Char}

theorem map_isBlank_eq (h : s.Forall₂ SameLetter t) : s.map isBlank = t.map isBlank := by
  rw [← List.forall₂_eq_eq_eq, List.forall₂_map_left_iff, List.forall₂_map_right_iff]
  exact h.imp fun _ _ => SameLetter.isBlank_eq

theorem unpadded_iff_map : Unpadded s ↔
    (∀ b ∈ (s.map isBlank).head?, b = false) ∧ ∀ b ∈ (s.map isBlank).getLast?, b = false := by
  simp [Unpadded]

/-- Padding does not depend on the case of the letters. -/
theorem unpadded_congr (h : s.Forall₂ SameLetter t) : Unpadded s ↔ Unpadded t := by
  rw [unpadded_iff_map, unpadded_iff_map, map_isBlank_eq h]

theorem forall_isBlank_congr (h : s.Forall₂ SameLetter t) :
    (∀ c ∈ s, isBlank c = true) ↔ ∀ c ∈ t, isBlank c = true := by
  have hmap : ∀ u : List Char, (∀ c ∈ u, isBlank c = true) ↔ ∀ b ∈ u.map isBlank, b = true := by
    simp
  rw [hmap, hmap, map_isBlank_eq h]

end Spelling

end Text

open Text

/-! ### Nicknames -/

namespace Config.Database

/-- The name is the nickname of the database, in any case of its letters and with any blanks
around it. -/
def Spells (d : Database) (name : String) : Prop :=
  ∃ front word back, name.toList = front ++ word ++ back ∧ (∀ c ∈ front, isBlank c = true) ∧
    (∀ c ∈ back, isBlank c = true) ∧ word.Forall₂ SameLetter d.nickname.toList

variable {d : Database} {name : String}

theorem spells_nickname (d : Database) : d.Spells d.nickname :=
  ⟨[], d.nickname.toList, [], by simp, by simp, by simp,
    List.forall₂_same.mpr fun c _ => .refl c⟩

/-- Blanks in front do not change what a name spells. -/
theorem Spells.cons (h : d.Spells name) {c : Char} (hc : isBlank c = true) :
    d.Spells (String.ofList (c :: name.toList)) := by
  obtain ⟨front, word, back, hname, hfront, hback, hword⟩ := h
  refine ⟨c :: front, word, back, by simp [hname], ?_, hback, hword⟩
  exact List.forall_mem_cons.mpr ⟨hc, hfront⟩

theorem resolve_of_blank (d : Database) (h : Blank name) : d.resolve name = d.name := by
  rw [resolve, isEmpty_trim_iff.mpr h]
  rfl

/-- A name that is not blank is compared with the nickname as it was configured. -/
theorem resolve_of_not_blank (h : ¬ Blank name) : d.resolve name =
    if (trim name.toList).Forall₂ SameLetter d.nickname.toList then d.name else name := by
  have htrim : (trim name.toList).isEmpty = false :=
    Bool.eq_false_iff.mpr (mt isEmpty_trim_iff.mp h)
  rw [resolve, htrim, Bool.false_or]
  simp only [sameLetters_iff, String.toList_ofList]

theorem forall₂_trim_iff : (trim name.toList).Forall₂ SameLetter d.nickname.toList ↔
    Unpadded d.nickname.toList ∧ d.Spells name := by
  constructor
  · intro h
    obtain ⟨front, back, hname, hfront, hback, hword⟩ := trimmed_trim name.toList
    exact ⟨(unpadded_congr h).mp hword, front, _, back, hname, hfront, hback, h⟩
  · rintro ⟨hnickname, front, word, back, hname, hfront, hback, hword⟩
    have htrim : trim name.toList = word :=
      trimmed_iff.mp ⟨front, back, hname, hfront, hback, (unpadded_congr hword).mpr hnickname⟩
    rwa [htrim]

theorem resolve_of_spells (hnickname : Unpadded d.nickname.toList) (h : d.Spells name) :
    d.resolve name = d.name := by
  by_cases hblank : Blank name
  · exact d.resolve_of_blank hblank
  · rw [resolve_of_not_blank hblank, if_pos (forall₂_trim_iff.mpr ⟨hnickname, h⟩)]

theorem resolve_of_not_spells (hblank : ¬ Blank name) (h : ¬ d.Spells name) :
    d.resolve name = name := by
  rw [resolve_of_not_blank hblank, if_neg fun hword => h (forall₂_trim_iff.mp hword).2]

theorem resolve_of_padded (hnickname : ¬ Unpadded d.nickname.toList) (hblank : ¬ Blank name) :
    d.resolve name = name := by
  rw [resolve_of_not_blank hblank, if_neg fun hword => hnickname (forall₂_trim_iff.mp hword).1]

theorem resolve_eq_or (d : Database) (name : String) :
    d.resolve name = d.name ∨ d.resolve name = name := by
  simp only [resolve]
  split
  · exact .inl rfl
  · exact .inr rfl

theorem resolve_resolve (d : Database) (name : String) :
    d.resolve (d.resolve name) = d.resolve name := by
  rcases d.resolve_eq_or name with h | h
  · rw [h]
    exact or_self_iff.mp (d.resolve_eq_or d.name)
  · rw [h, h]

theorem Spells.blank (h : d.Spells name) (hnickname : Blank d.nickname) : Blank name := by
  obtain ⟨front, word, back, hname, hfront, hback, hword⟩ := h
  have hblank := (forall_isBlank_congr hword).mpr hnickname
  rw [Blank, hname]
  simp only [List.mem_append]
  rintro c ((hc | hc) | hc)
  · exact hfront c hc
  · exact hblank c hc
  · exact hback c hc

/-- Of two spellings of a padded nickname at most one can be the configured name. -/
theorem exists_spells_of_padded (hnickname : ¬ Unpadded d.nickname.toList)
    (hblank : ¬ Blank d.nickname) : ∃ name, d.Spells name ∧ d.resolve name ≠ d.name := by
  have hself : d.resolve d.nickname = d.nickname := resolve_of_padded hnickname hblank
  by_cases hname : d.nickname = d.name
  · have hspace : isBlank ' ' = true := by decide
    have hblank' : ¬ Blank (String.ofList (' ' :: d.nickname.toList)) := by
      rw [Blank, String.toList_ofList]
      exact fun h => hblank fun c hc => h c (.tail ' ' hc)
    refine ⟨_, d.spells_nickname.cons hspace, ?_⟩
    rw [resolve_of_padded hnickname hblank', ← hname]
    intro h
    have hlength := congrArg (fun s => s.toList.length) h
    simp at hlength
  · exact ⟨d.nickname, d.spells_nickname, by rwa [hself]⟩

/-- Where the nickname is known at all. -/
theorem resolves_spells_iff : (∀ name, d.Spells name → d.resolve name = d.name) ↔
    Unpadded d.nickname.toList ∨ Blank d.nickname := by
  constructor
  · intro h
    by_contra hneither
    obtain ⟨hnickname, hblank⟩ := not_or.mp hneither
    obtain ⟨name, hspells, hname⟩ := exists_spells_of_padded hnickname hblank
    exact hname (h name hspells)
  · rintro (hnickname | hblank) name hspells
    · exact resolve_of_spells hnickname hspells
    · exact d.resolve_of_blank (hspells.blank hblank)

end Config.Database

open Config.Database in
/-- Every view of a survey lists the database by its nickname and tells whether the database with
the configured name is up. That is the database the console goes to for a blank name and, unless the
nickname is padded itself, for each spelling of the nickname; any other name stands for itself, and
a name that is resolved stays as it is. -/
theorem resolve_nickname (c : Config) (client : Database.Client) (dial : Health.Dial)
    (limit : UInt64) (now : Timestamp) :
    let d := c.database
    let s := Health.survey c client dial limit
    (∀ checks ∈ [(Health.Detailed.ofSnapshot s).checks, (Health.Report.ofSnapshot s now).checks,
        (Health.Full.ofSnapshot s).checks],
      (checks .database).entries = [(d.nickname, client.isUp limit.toNat d.name)]) ∧
    ((∀ name, d.Spells name → d.resolve name = d.name) ↔
      Unpadded d.nickname.toList ∨ Blank d.nickname) ∧
    (∀ name, Blank name → d.resolve name = d.name) ∧
    (∀ name, ¬ Blank name → ¬ d.Spells name → d.resolve name = name) ∧
    ∀ name, d.resolve (d.resolve name) = d.resolve name := by
  intro d s
  refine ⟨?_, resolves_spells_iff, fun name => d.resolve_of_blank,
    fun name => resolve_of_not_spells, d.resolve_resolve⟩
  intro checks hchecks
  have hflags : checks = Health.flags s := by
    rw [Health.checks_detailed, Health.checks_report, Health.checks_full] at hchecks
    simpa using hchecks
  rw [hflags, (Health.tells_flags_survey c client dial limit).database]

/-- The console passes this nickname on as the name of a database. -/
theorem padded_nickname_not_resolved :
    let d : Config.Database := { nickname := " wapromag" }
    d.Spells " wapromag" ∧ d.resolve " wapromag" = " wapromag" ∧ d.name = "wapromag_test" :=
  ⟨Config.Database.spells_nickname _, by decide, rfl⟩

end LabelFleet
