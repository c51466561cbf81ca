import LabelFleet.Proofs.Printer.IpText

/-! An address in brackets is read like the address alone: no reader takes anything from a closing
bracket on. -/
namespace LabelFleet

namespace Ip

variable {ip : Ip} {s rest : List Char} (t : List Char)

/-- What a reader leaves in front of a closing bracket. -/
def inFront {α : Type} (t : List Char) (r : α × List Char) : α × List Char := (r.1, r.2 ++ ']' :: t)

theorem octet?_append (s : List Char) :
    octet? (s ++ ']' :: t) = (octet? s).map (inFront t) := by
  have hstop : Char.isDigit ']' = false := rfl
  rw [octet?, octet?, Digits.run, Digits.run, Text.takeWhile_append_cons hstop,
    Text.dropWhile_append_cons hstop]
  dsimp only
  split_ifs <;> rfl

theorem octets?_append (s : List Char) :
    octets? (s ++ ']' :: t) = (octets? s).map (inFront t) := by
  have hdot : ∀ s, Text.char? '.' (s ++ ']' :: t) = (Text.char? '.' s).map (· ++ ']' :: t) :=
    fun s => Text.char?_append (by decide) s t
  simp only [octets?, octet?_append, hdot, Option.bind_eq_bind, Option.bind_map, Option.map_bind,
    Function.comp_def, inFront]
  rfl

theorem group?_append (s : List Char) :
    group? (s ++ ']' :: t) = (group? s).map (inFront t) := by
  have hstop : Hex.isDigit ']' = false := rfl
  rw [group?, group?, Text.takeWhile_append_cons hstop, Text.dropWhile_append_cons hstop]
  split_ifs <;> rfl

theorem readGroups_append (first : Bool) (room : Nat) (s : List Char) :
    readGroups first room (s ++ ']' :: t) = ((readGroups first room s).1,
      (readGroups first room s).2.1, (readGroups first room s).2.2 ++ ']' :: t) := by
  -- A bracket is neither a digit nor a separator, so no part of a group can be read across it.
  induction room generalizing first s with
  | zero => rfl
  | succ room ih =>
    have hnext : (if first then some (s ++ ']' :: t) else Text.char? ':' (s ++ ']' :: t)) =
        (if first then some s else Text.char? ':' s).map (· ++ ']' :: t) := by
      cases first with
      | true => rfl
      | false => exact Text.char?_append (by decide) s t
    have hoctets : ∀ u, (if room = 0 then none else octets? (u ++ ']' :: t)) =
        (if room = 0 then none else octets? u).map (inFront t) := by
      intro u
      split
      · rfl
      · exact octets?_append t u
    rw [readGroups, readGroups, hnext]
    rcases (if first then some s else Text.char? ':' s) with _ | u
    · rfl
    rw [Option.map_some]
    dsimp only
    rw [hoctets u, group?_append]
    rcases (if room = 0 then none else octets? u) with _ | ⟨⟨a, b, c, d⟩, u'⟩
    · rcases group? u with _ | ⟨g, u'⟩
      · rfl
      · change (g :: (readGroups false room (u' ++ ']' :: t)).1,
          (readGroups false room (u' ++ ']' :: t)).2) = _
        rw [ih]
    · rfl

theorem readV6_append (h : readV6 s = some (ip, rest)) :
    readV6 (s ++ ']' :: t) = some (ip, rest ++ ']' :: t) := by
  rcases readV6_cases h with ⟨gs, octets, hlength, hgroups, rfl⟩ |
    ⟨front, back, octets, u, hlength, hfront, hfew, hback, rfl⟩
  · have hread := readGroups_append t true 8 s
    rw [hgroups] at hread
    exact readV6_of_groups hread hlength
  · have hread := readGroups_append t true 8 s
    have hrest := readGroups_append t true (7 - front.length) u
    rw [hfront] at hread
    rw [hback] at hrest
    exact readV6_of_pair hread hfew hrest hlength

end Ip

/-! ### Endpoints -/

namespace Endpoint

theorem readPort_ofNat (port : UInt16) :
    readPort (':' :: Digits.ofNat port.toNat) = some (port, []) := by
  have hrun : Digits.run (Digits.ofNat port.toNat ++ []) = (Digits.ofNat port.toNat, []) :=
    Digits.run_ofNat_append port.toNat (by simp)
  rw [List.append_nil] at hrun
  have hne : (Digits.ofNat port.toNat).isEmpty = false :=
    List.isEmpty_eq_false_iff.mpr (Digits.ofNat_ne_nil _)
  have hnumber : number? (Nat.pow 2 16) (Digits.ofNat port.toNat) = some (port.toNat, []) := by
    rw [number?, hrun]
    simp only [hne, Digits.toNat_ofNat, Bool.false_eq_true, if_false]
    exact if_pos port.toNat_lt
  have hcolon : Text.char? ':' (':' :: Digits.ofNat port.toNat) =
    some (Digits.ofNat port.toNat) := rfl
  rw [readPort, hcolon]
  simp only [Option.bind_eq_bind, Option.bind_some, hnumber, UInt16.ofNat_toNat]
  rfl

/-- An address of version 4 and a port are read as such. -/
theorem parse?_octets (a b c d : UInt8) (port : UInt16) :
    parse? (Ip.octets a b c d ++ ':' :: Digits.ofNat port.toNat) = some ⟨.v4 a b c d, port⟩ := by
  have hread : Ip.octets? (Ip.octets a b c d ++ ':' :: Digits.ofNat port.toNat) =
    some ((a, b, c, d), ':' :: Digits.ofNat port.toNat) := Ip.octets?_octets a b c d (by simp)
  have hip := Ip.readV4_eq_some_iff.mpr ⟨a, b, c, d, hread, rfl⟩
  have hendpoint : readV4 (Ip.octets a b c d ++ ':' :: Digits.ofNat port.toNat) =
      some (⟨.v4 a b c d, port⟩, []) := by
    rw [readV4, hip]
    simp only [Option.bind_eq_bind, Option.bind_some, readPort_ofNat]
    rfl
  rw [parse?, Ip.whole_eq_some_iff.mpr hendpoint, Option.some_or]

/-- An address of version 6 in brackets and a port are read as such, however the address is
spelled. -/
theorem parse?_brackets {s : List Char} {ip : Ip} (h : Ip.readV6 s = some (ip, []))
    (port : UInt16) :
    parse? ('[' :: (s ++ ']' :: ':' :: Digits.ofNat port.toNat)) = some ⟨ip, port⟩ := by
  have hread := Ip.readV6_append (':' :: Digits.ofNat port.toNat) h
  have hendpoint : readV6 ('[' :: (s ++ ']' :: ':' :: Digits.ofNat port.toNat)) =
      some (⟨ip, port⟩, []) := by
    have hopen : Text.char? '[' ('[' :: (s ++ ']' :: ':' :: Digits.ofNat port.toNat)) =
      some (s ++ ']' :: ':' :: Digits.ofNat port.toNat) := rfl
    have hclose : Text.char? ']' (skipScope (']' :: ':' :: Digits.ofNat port.toNat)) =
      some (':' :: Digits.ofNat port.toNat) := rfl
    rw [readV6, hopen]
    simp only [Option.bind_eq_bind, Option.bind_some, hread, List.nil_append, hclose,
      readPort_ofNat]
    rfl
  have hv4 : readV4 ('[' :: (s ++ ']' :: ':' :: Digits.ofNat port.toNat)) = none := rfl
  rw [parse?, hv4, Ip.whole_eq_some_iff.mpr hendpoint]
  rfl

end Endpoint

end LabelFleet
