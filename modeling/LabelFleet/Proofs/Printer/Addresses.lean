import LabelFleet.Printer.Network
import LabelFleet.Proofs.Printer.Brackets

/-! The text of an address leads back to the address, and to the same endpoint. -/
namespace LabelFleet.Address

variable {host : List Char} {ip : Ip}

/-! ### Hosts -/

/-- The characters of a host name. -/
def HostChar (c : Char) : Prop := c.isAlphanum = true ∨ c = '-' ∨ c = '.' ∨ c = '_'

instance (c : Char) : Decidable (HostChar c) := inferInstanceAs (Decidable (_ ∨ _))

/-- A name of 1 to 253 bytes that a name service may be asked for. -/
def HostName (host : List Char) : Prop :=
  host ≠ [] ∧ Text.byteLength host ≤ 253 ∧ ∀ c ∈ host, HostChar c

theorem isHostChar_iff {c : Char} : isHostChar c = true ↔ HostChar c := by
  simp [isHostChar, HostChar, or_assoc]

theorem isHostName_iff : isHostName host = true ↔ HostName host := by
  simp only [isHostName, HostName, Bool.and_eq_true, Bool.not_eq_true', List.isEmpty_eq_false_iff,
    decide_eq_true_eq, List.all_eq_true, isHostChar_iff, and_assoc]

theorem HostChar.not_isBlank {c : Char} (h : HostChar c) : Text.isBlank c = false := by
  rcases h with h | rfl | rfl | rfl
  · exact Text.not_isBlank_of_isAlphanum h
  all_goals decide

theorem HostName.colon_not_mem (h : HostName host) : ':' ∉ host := by
  intro hmem
  exact absurd (h.2.2 ':' hmem) (by decide)

/-- A host as it stands in front of its port. -/
def shown (host : List Char) : List Char := if ':' ∈ host then '[' :: (host ++ [']']) else host

theorem toList_text (a : Address) :
    a.text.toList = shown a.host.toList ++ ':' :: Digits.ofNat a.port.toNat := by
  rw [text, shown, Digits.text]
  split <;> simp [toString]

/-- A host that an operator may give: an internet address in any spelling, or a host name. -/
def Usable (host : List Char) : Prop :=
  (∃ ip, Ip.parse? host = some ip) ∨ HostName host

theorem unpadded_shown (h : Usable host) : Text.Unpadded (shown host) := by
  rw [shown]
  split_ifs with hcolon
  · constructor
    · simp [Text.isBlank]
    · rw [← List.cons_append, List.getLast?_concat]
      simp [Text.isBlank]
  · apply Text.unpadded_of_forall
    intro c hc
    rcases h with ⟨ip, hip⟩ | hname
    · rcases Ip.parse?_cases hip with ⟨a, b, c, d, rfl, rfl⟩ | hv6
      · rcases Ip.mem_octets hc with hdigit | rfl
        · exact Text.not_isBlank_of_isAlphanum (Text.isAlphanum_iff.mpr (.inr hdigit))
        · rfl
      · exact absurd (Ip.colon_mem_of_readV6 hv6) hcolon
    · exact (hname.2.2 c hc).not_isBlank

/-- Nothing is trimmed off the text of an address. -/
theorem trim_text {a : Address} (h : Usable a.host.toList) :
    Text.trim a.text.toList = a.text.toList := by
  have hcolon : Text.Unpadded [':'] := Text.unpadded_of_ends rfl rfl
  rw [toList_text]
  exact Text.trim_of_unpadded
    ((unpadded_shown h).append (hcolon.append (Digits.unpadded_ofNat _)))

/-! ### Internet addresses -/

theorem parse?_text_of_ip {a : Address} (h : Ip.parse? a.host.toList = some ip) :
    Endpoint.parse? a.text.toList = some ⟨ip, a.port⟩ := by
  rw [toList_text, shown]
  rcases Ip.parse?_cases h with ⟨b₁, b₂, b₃, b₄, hhost, rfl⟩ | hv6
  · rw [hhost, if_neg (Ip.colon_not_mem_octets b₁ b₂ b₃ b₄)]
    exact Endpoint.parse?_octets b₁ b₂ b₃ b₄ a.port
  · rw [if_pos (Ip.colon_mem_of_readV6 hv6), List.cons_append, List.append_assoc]
    exact Endpoint.parse?_brackets hv6 a.port

/-! ### Host names -/

/-- A name in front of a port is no internet address: it has one colon only. -/
theorem ip_parse?_of_name (hname : HostName host) (port : UInt16) :
    Ip.parse? (host ++ ':' :: Digits.ofNat port.toNat) = none := by
  have hcount : (host ++ ':' :: Digits.ofNat port.toNat).count ':' = 1 := by
    rw [List.count_append, List.count_cons_self,
      List.count_eq_zero_of_not_mem hname.colon_not_mem,
      List.count_eq_zero_of_not_mem (Digits.not_mem_ofNat rfl _)]
  rw [Option.eq_none_iff_forall_ne_some]
  intro ip h
  rcases Ip.parse?_cases h with ⟨a, b, c, d, htext, -⟩ | hv6
  · rw [htext, List.count_eq_zero_of_not_mem (Ip.colon_not_mem_octets a b c d)] at hcount
    contradiction
  · have := Ip.two_le_count_of_readV6 hv6
    omega

/-- A name in front of a port is no endpoint, for what stands in front of the port would have to be
an internet address. -/
theorem endpoint_parse?_of_name (hname : HostName host) (hip : Ip.parse? host = none)
    (port : UInt16) : Endpoint.parse? (host ++ ':' :: Digits.ofNat port.toNat) = none := by
  have hcolon := hname.colon_not_mem
  -- The name would be the octets, as both stand in front of the only colon.
  have hv4 : Endpoint.readV4 (host ++ ':' :: Digits.ofNat port.toNat) = none := by
    rw [Option.eq_none_iff_forall_ne_some]
    rintro ⟨e, rest⟩ h
    simp only [Endpoint.readV4, Endpoint.readPort, Option.bind_eq_bind, Option.bind_eq_some_iff,
      Prod.exists] at h
    obtain ⟨ip, s, hread, -, -, ⟨u, hport, -⟩, -⟩ := h
    obtain ⟨a, b, c, d, hoctets, -⟩ := Ip.readV4_eq_some_iff.mp hread
    have hsplit := Ip.eq_of_octets? hoctets
    rw [Ip.append_of_char? hport] at hsplit
    have hhost := (List.append_cons_inj_of_notMem hcolon (Digits.not_mem_ofNat rfl _)).mp hsplit
    rw [hhost.1, Ip.parse?_octets] at hip
    contradiction
  have hv6 : Endpoint.readV6 (host ++ ':' :: Digits.ofNat port.toNat) = none := by
    obtain ⟨hne, -, hchars⟩ := hname
    obtain ⟨c, cs, rfl⟩ := List.exists_cons_of_ne_nil hne
    have hc : '[' ≠ c := by
      rintro rfl
      exact absurd (hchars '[' List.mem_cons_self) (by decide)
    have hopen : Text.char? '[' (c :: (cs ++ ':' :: Digits.ofNat port.toNat)) = none := if_neg hc
    rw [List.cons_append, Endpoint.readV6, hopen]
    rfl
  rw [Endpoint.parse?, hv4, hv6]
  rfl

/-! ### There and back -/

/-- A host as it is kept: the canonical text of an internet address, and any other host as it is. -/
def keptHost (host : String) : String :=
  match Ip.parse? host.toList with
  | some ip => String.ofList ip.text
  | none => host

theorem port?_ofNat (port : UInt16) : port? (Digits.ofNat port.toNat) = some port := by
  have hread : Digits.read (Nat.pow 2 16) (Digits.ofNat port.toNat) = .ok port.toNat :=
    Digits.read_ofNat port.toNat_lt
  rw [port?, hread]
  exact congrArg some UInt16.ofNat_toNat

theorem parse_text {a : Address} (h : Usable a.host.toList) :
    parse a.text = .ok ⟨keptHost a.host, a.port⟩ := by
  have hfound : ofTrimmed? a.text.toList = some ⟨keptHost a.host, a.port⟩ := by
    rw [keptHost]
    cases hip : Ip.parse? a.host.toList with
    | some ip =>
      rw [ofTrimmed?, parse?_text_of_ip hip]
      rfl
    | none =>
      have hname : HostName a.host.toList := by
        rcases h with ⟨ip, h⟩ | h
        · rw [hip] at h
          contradiction
        · exact h
      have htext : a.text.toList = a.host.toList ++ ':' :: Digits.ofNat a.port.toNat := by
        rw [toList_text, shown, if_neg hname.colon_not_mem]
      have hdigits : ':' ∉ Digits.ofNat a.port.toNat := Digits.not_mem_ofNat rfl _
      rw [htext, ofTrimmed?, endpoint_parse?_of_name hname hip, ip_parse?_of_name hname]
      simp only [Text.splitLast?_append _ hdigits, port?_ofNat, Option.map_some,
        Option.bind_eq_bind, Option.bind_some, isHostName_iff.mpr hname, if_true,
        String.ofList_toList]
  rw [parse, trim_text h, hfound]

/-- A host stands for the same endpoint as it is kept. -/
theorem resolve_keptHost (lookup : String → Option Ip) (host : String) (port : UInt16) :
    (⟨keptHost host, port⟩ : Address).resolve lookup = (⟨host, port⟩ : Address).resolve lookup := by
  rw [keptHost]
  cases hip : Ip.parse? host.toList with
  | none => rfl
  | some ip =>
    simp only [resolve, String.toList_ofList, Ip.parse?_text, hip]
    rfl

/-- The host is as it is kept. -/
def Canonical (host : String) : Prop :=
  (∃ ip : Ip, host = String.ofList ip.text) ∨ HostName host.toList

theorem Canonical.usable {host : String} (h : Canonical host) : Usable host.toList := by
  rcases h with ⟨ip, rfl⟩ | hname
  · exact .inl ⟨ip, by rw [String.toList_ofList, Ip.parse?_text]⟩
  · exact .inr hname

theorem Canonical.keptHost_eq {host : String} (h : Canonical host) : keptHost host = host := by
  rw [keptHost]
  rcases h with ⟨ip, rfl⟩ | hname
  · rw [String.toList_ofList, Ip.parse?_text]
  · split
    · next ip hip =>
      rcases Ip.parse?_cases hip with ⟨a, b, c, d, htext, rfl⟩ | hv6
      · rw [Ip.text_v4, ← htext, String.ofList_toList]
      · exact absurd (Ip.colon_mem_of_readV6 hv6) hname.colon_not_mem
    · rfl

theorem canonical_of_parse {input : String} {a : Address} (h : parse input = .ok a) :
    Canonical a.host := by
  have hip : ∀ ip port, Canonical (ofIp ip port).host := fun ip port => .inl ⟨ip, rfl⟩
  have hname : ∀ {o : Option (List Char × UInt16)}, (o.bind fun r =>
      if isHostName r.1 then some (⟨String.ofList r.1, r.2⟩ : Address) else none) = some a →
      Canonical a.host := by
    intro o ho
    obtain ⟨⟨host, port⟩, -, ho⟩ := Option.bind_eq_some_iff.mp ho
    dsimp only at ho
    split_ifs at ho with hname
    rw [← Option.some.inj ho]
    exact .inr (isHostName_iff.mp (by rwa [String.toList_ofList]))
  rw [parse] at h
  split at h
  · next a' hfound =>
    cases h
    rw [ofTrimmed?] at hfound
    split at hfound
    · exact Option.some.inj hfound ▸ hip _ _
    · exact Option.some.inj hfound ▸ hip _ _
    · split at hfound
      · exact hname hfound
      · exact hname (o := some (Text.trim input.toList, defaultPort)) hfound
  · contradiction

/-! ### Dialling -/

/-- The printer that answers a dial of an address within so many milliseconds: the one at the
endpoint of the address. -/
def reached (n : Printer.Network) (a : Address) (limit : ℕ) : Option (Endpoint × Printer.Peer) := do
  let endpoint ← (a.resolve n.lookup).toOption
  let station := n.station endpoint
  if station.delay.any (· ≤ limit) then station.value.toOption.map fun peer => (endpoint, peer)
  else none

theorem reached_congr {n : Printer.Network} {a b : Address}
    (h : a.resolve n.lookup = b.resolve n.lookup) : reached n a = reached n b := by
  funext limit
  rw [reached, reached, h]

/-- Whatever is made of a dial that nobody answers in time, it is not a printer. -/
theorem toOption_within_dial (n : Printer.Network) (a : Address) (limit : ℕ) (e : PrinterError) :
    ((n.dial a).within limit (.error e)).value.toOption = reached n a limit := by
  rw [Printer.Network.dial, reached]
  cases a.resolve n.lookup with
  | error e => rfl
  | ok endpoint =>
    have htime : ((n.station endpoint).map fun answer =>
        (answer.mapError (·.toError a)).map fun peer => (endpoint, peer)).inTime limit =
          (n.station endpoint).delay.any (· ≤ limit) :=
      (n.station endpoint).inTime_eq limit
    have hvalue : (((n.station endpoint).value.mapError (·.toError a)).map
        fun peer => (endpoint, peer)).toOption =
          (n.station endpoint).value.toOption.map fun peer => (endpoint, peer) := by
      cases (n.station endpoint).value <;> rfl
    simp only [Timed.within, htime]
    cases hany : (n.station endpoint).delay.any (· ≤ limit) with
    | true =>
      refine hvalue.trans ?_
      simp [Except.toOption, hany]
    | false => simp [Except.toOption, hany]

theorem toOption_openSession {n : Printer.Network} {limits : Printer.Limits} {input : String}
    {a : Address} (h : parse input = .ok a) :
    (n.openSession input limits).toOption.map (fun o => (o.1, o.2.channel.peer)) =
      reached n a limits.connect.millis := by
  rw [← toOption_within_dial n a limits.connect.millis (.connectionTimeout a.text limits.connect),
    Printer.Network.openSession, h]
  change (do
    let r ← (n.connect a limits.connect).value
    return (r.1, (⟨a, limits, { peer := r.2 }⟩ : Printer.Session))).toOption.map _ =
      (n.connect a limits.connect).value.toOption
  cases (n.connect a limits.connect).value <;> rfl

/-- The text of an address leads to the endpoint of the address: its port is read back, and its host
as it is kept, in canonical text if it is an internet address, so a session that is opened by the
text reaches what a dial of the address reaches. Whatever an operator types, the address that is
read from it is read back from its own text, so no two addresses share a text. -/
theorem parse_text_resolve :
    (∀ (host : String) (port : UInt16), Usable host.toList →
      parse (⟨host, port⟩ : Address).text = .ok ⟨keptHost host, port⟩ ∧
      (∀ lookup : UInt16 → String → Option Ip,
        (do (← parse (⟨host, port⟩ : Address).text).resolve (lookup port)) =
          (⟨host, port⟩ : Address).resolve (lookup port)) ∧
      ∀ (n : Printer.Network) (limits : Printer.Limits),
        (n.openSession (⟨host, port⟩ : Address).text limits).toOption.map Prod.fst =
          (n.connect ⟨host, port⟩ limits.connect).value.toOption.map Prod.fst ∧
        (n.openSession (⟨host, port⟩ : Address).text limits).toOption.map
          (fun o => (o.1, o.2.channel.peer)) = reached n ⟨host, port⟩ limits.connect.millis ∧
        ∀ limit : Duration,
          (n.connect ⟨host, port⟩ limit).value.toOption = reached n ⟨host, port⟩ limit.millis ∧
          (n.openFor ⟨host, port⟩ limit).value.toOption = reached n ⟨host, port⟩ limit.millis) ∧
    (∀ ip : Ip, Ip.Written ip ip.text) ∧
    (∀ input a, parse input = .ok a → Canonical a.host ∧ parse a.text = .ok a) ∧
    ∀ input a input' b, parse input = .ok a → parse input' = .ok b → a.text = b.text → a = b := by
  have hback : ∀ input a, parse input = .ok a → parse a.text = .ok a := by
    intro input a h
    have hcanonical := canonical_of_parse h
    rw [parse_text hcanonical.usable, hcanonical.keptHost_eq]
  refine ⟨?_, Ip.written_text, ?_, ?_⟩
  · intro host port h
    have hparse : parse (⟨host, port⟩ : Address).text = .ok ⟨keptHost host, port⟩ := parse_text h
    refine ⟨hparse, ?_, ?_⟩
    · intro lookup
      rw [hparse]
      exact resolve_keptHost (lookup port) host port
    · intro n limits
      have hsession : (n.openSession (⟨host, port⟩ : Address).text limits).toOption.map
          (fun o => (o.1, o.2.channel.peer)) =
            reached n ⟨keptHost host, port⟩ limits.connect.millis := toOption_openSession hparse
      rw [reached_congr (resolve_keptHost n.lookup host port)] at hsession
      have hconnect : ∀ limit, (n.connect ⟨host, port⟩ limit).value.toOption =
          reached n ⟨host, port⟩ limit.millis := fun limit => toOption_within_dial ..
      refine ⟨?_, hsession, fun limit => ⟨hconnect limit, toOption_within_dial ..⟩⟩
      rw [hconnect, ← hsession, Option.map_map]
      rfl
  · intro input a h
    exact ⟨canonical_of_parse h, hback input a h⟩
  · intro input a input' b ha hb htext
    have hread := hback input a ha
    rw [htext, hback input' b hb] at hread
    exact (Except.ok.inj hread).symm

/-- An address of version 6 in capitals, with zeros that need not be written. -/
theorem parse_text_resolve_capitals :
    parse (⟨"FE80:0::00A1", 9101⟩ : Address).text = .ok ⟨"fe80::a1", 9101⟩ ∧
    parse (⟨"fe80::a1", 9101⟩ : Address).text = .ok ⟨"fe80::a1", 9101⟩ := by
  have hip : Ip.parse? "FE80:0::00A1".toList = some (.v6 [0xfe80, 0, 0, 0, 0, 0, 0, 0xa1] rfl) := by
    decide
  have hgroups : Ip.group 0xfe80 ++ ':' :: ':' :: Ip.group 0xa1 = "fe80::a1".toList := by
    simp [Ip.group, Hex.ofNat]
  have htext : (Ip.v6 [0xfe80, 0, 0, 0, 0, 0, 0, 0xa1] rfl).text = "fe80::a1".toList :=
    Eq.trans rfl hgroups
  have hkept : keptHost "FE80:0::00A1" = "fe80::a1" := by
    rw [keptHost, hip]
    dsimp only
    rw [htext, String.ofList_toList]
  obtain ⟨hthere, -, hback, -⟩ := parse_text_resolve
  have hread := (hthere "FE80:0::00A1" 9101 (.inl ⟨_, hip⟩)).1
  rw [hkept] at hread
  exact ⟨hread, (hback _ _ hread).2⟩

end LabelFleet.Address
