import LabelFleet.Proofs.Config.PlainFiles
import LabelFleet.Proofs.Config.Variables

/-! The layers of a loaded configuration. Each leaf comes from the topmost layer that has a value
for it: its variable, the file, the built-in values. -/
namespace LabelFleet.Config

/-! ### Built-in values -/

/-- The layer of a configuration as a whole is converted to the configuration. -/
theorem ofEntries_builtin : ofEntries ({} : Config).entries = .ok {} := by
  have hparts : (ofEntries ({} : Config).entries).toOption.map
      (fun c => (c.database, c.printers.entries, c.timeouts)) =
        some ({}, builtinPrinters.entries, {}) := by
    decide +kernel
  cases hload : ofEntries ({} : Config).entries with
  | error e =>
    rw [hload] at hparts
    cases hparts
  | ok c =>
    rw [hload] at hparts
    obtain ⟨database, ⟨printers, hprinters⟩, timeouts⟩ := c
    obtain ⟨rfl, rfl, rfl⟩ :
        database = {} ∧ printers = builtinPrinters.entries ∧ timeouts = {} := by
      simpa [Except.toOption] using hparts
    rfl

namespace Area

/-- The key of a group, or of the table that the group is in. -/
def key : Area → String
  | database => "database"
  | printer _ => "printers"
  | timeouts => "timeouts"

/-- The way from the value of the key to the group. -/
def within? : Area → Option Value → Option Value
  | printer id, o => (o.getD .nothing).entries.lookup id
  | _, o => o

theorem key_eq_of_isPrinter {area : Area} (h : area.isPrinter) : area.key = "printers" := by
  cases area with
  | printer id => rfl
  | database => cases h
  | timeouts => cases h

theorem at?_path (area : Area) (es : Entries) :
    (Value.table es).at? area.path = area.within? (es.lookup area.key) := by
  cases area with
  | database => exact Option.bind_fun_some _
  | timeouts => exact Option.bind_fun_some _
  | printer id =>
    change (es.lookup "printers").bind (Value.at? [id]) = _
    rw [← Value.bind_at?_eq _ (List.cons_ne_nil id [])]
    exact Option.bind_fun_some _

/-- Each key stands for a table of the built-in values. -/
theorem exists_builtin_table (area : Area) :
    ∃ ds, ({} : Config).entries.lookup area.key = some (.table ds) ∧ entriesListless ds := by
  cases area with
  | database => exact ⟨_, rfl, by decide +kernel⟩
  | printer id => exact ⟨_, rfl, by decide +kernel⟩
  | timeouts => exact ⟨_, rfl, by decide +kernel⟩

theorem merged_within (area : Area) {ds : Entries} {f s : Option Value} (h : Kept ds f s) :
    Merged (area.within? (some (.table ds))) (area.within? f) (area.within? s) := by
  cases area with
  | printer id => exact h.lookup id
  | database => exact h.merged
  | timeouts => exact h.merged

/-- A file is merged with the built-in values of a group, or they are gone. -/
theorem merged_overlayFile (area : Area) (file : Entries) :
    let fileOnly := (Value.table (overlayFile [] file)).at? area.path
    let result := (Value.table (overlayFile ({} : Config).entries file)).at? area.path
    if replacesGroup area.key file then fileOnly = result
    else Merged ((Value.table ({} : Config).entries).at? area.path) fileOnly result := by
  intro fileOnly result
  obtain ⟨ds, hds, hlistless⟩ := area.exists_builtin_table
  have hkept := kept_overlayFile file hds hlistless
  simp only [fileOnly, result, at?_path, hds]
  cases hreplaces : replacesGroup area.key file with
  | true =>
    rw [hreplaces] at hkept
    exact congrArg area.within? hkept
  | false =>
    rw [hreplaces] at hkept
    exact area.merged_within hkept

end Area

/-! ### Leaves of merged groups -/

namespace Leaf

variable {l : Leaf}

/-- The value of a field of a merged group is the one of the file, or else the built-in one. -/
theorem field?_of_merged {d f s : Option Value} (h : Merged d f s) {index : Nat} {name : String}
    {x : Value} (hx : s.bind (Value.field? index name) = some x) (hne : ∀ es, x ≠ .table es) :
    f.bind (Value.field? index name) = some x ∨
      (f.bind (Value.field? index name) = none ∨
        f.bind (Value.field? index name) = some (.table [])) ∧
      d.bind (Value.field? index name) = some x := by
  cases h with
  | replaced d v => exact .inl hx
  | untouched d => exact .inr ⟨.inl rfl, hx⟩
  | empty v => exact .inr ⟨.inl rfl, hx⟩
  | @tables ds fs ss h =>
    change ss.lookup name = some x at hx
    change fs.lookup name = some x ∨
      (fs.lookup name = none ∨ fs.lookup name = some (.table [])) ∧ ds.lookup name = some x
    have hfield := h name
    rw [hx] at hfield
    revert hfield
    generalize ds.lookup name = d
    generalize fs.lookup name = f
    intro hfield
    cases hfield with
    | replaced d v => exact .inl rfl
    | untouched d => exact .inr ⟨.inl rfl, rfl⟩
    | empty v => exact .inr ⟨.inr rfl, rfl⟩
    | tables h => exact absurd rfl (hne _)

theorem given?_eq_none_of_area {layer : Entries}
    (h : (Value.table layer).at? l.area.path = none) : l.given? layer = none := by
  rw [given?, h]
  rfl

/-- What is given below the variables comes from the file, or it is built in and the file says
nothing. -/
theorem given?_overlayFile {file : Entries} {x : Value}
    (hx : l.given? (overlayFile ({} : Config).entries file) = some x)
    (hne : ∀ es, x ≠ .table es) :
    l.defined? file = some x ∨ l.defined? file = none ∧
      replacesGroup l.area.key file = false ∧ l.given? ({} : Config).entries = some x := by
  have hmerged := l.area.merged_overlayFile file
  cases hreplaces : replacesGroup l.area.key file with
  | true =>
    rw [hreplaces] at hmerged
    left
    apply (defined?_eq_some_iff hne).mpr
    rw [given?, show _ = _ from hmerged]
    exact hx
  | false =>
    rw [hreplaces] at hmerged
    rcases field?_of_merged hmerged hx hne with hfile | ⟨hsilent, hbuiltin⟩
    · exact .inl ((defined?_eq_some_iff hne).mpr hfile)
    · exact .inr ⟨defined?_eq_none hsilent, rfl, hbuiltin⟩

/-- A group that is absent has not been given by the file. It has not been built in either, unless
the file has replaced it. -/
theorem absent_overlayFile {file : Entries}
    (h : (Value.table (overlayFile ({} : Config).entries file)).at? l.area.path = none) :
    l.defined? file = none ∧ (replacesGroup l.area.key file = false →
      (Value.table ({} : Config).entries).at? l.area.path = none) := by
  have hmerged := l.area.merged_overlayFile file
  cases hreplaces : replacesGroup l.area.key file with
  | true =>
    rw [hreplaces] at hmerged
    have hfile := (show _ = _ from hmerged).trans h
    exact ⟨defined?_eq_none (.inl (given?_eq_none_of_area hfile)), nofun⟩
  | false =>
    rw [hreplaces, h] at hmerged
    obtain ⟨hbuiltin, hfile⟩ := Merged.eq_none hmerged
    exact ⟨defined?_eq_none (.inl (given?_eq_none_of_area hfile)), fun _ => hbuiltin⟩

end Leaf

/-! ### Loaded leaves -/

/-- All layers of a configuration, the variables above the file and the file above what is built
in. -/
def layers (environment : String → Option String) (file : Entries) : Entries :=
  overlayEnvironment environment (overlayFile ({} : Config).entries file)

namespace Leaf

variable {l : Leaf} {environment : String → Option String} {file : Entries} {c : Config}

/-- A leaf of a configuration is the conversion of a value. -/
def Holds (l : Leaf) (x : Value) (c : Config) : Prop :=
  ∃ j, l.kind.convert x = .ok j ∧ c.toJson.at? l.path = some j

/-- The value that overrides the built-in one: the text of the variable, or else what the file
gives. -/
def override? (environment : String → Option String) (file : Entries) (l : Leaf) : Option Value :=
  ((l.setting? environment).map .string).or (l.defined? file)

theorem override?_eq_none_iff : l.override? environment file = none ↔
    l.setting? environment = none ∧ l.defined? file = none := by
  simp [override?]

theorem holds_of_set (h : ofEntries (layers environment file) = .ok c) {s : String}
    (hs : l.setting? environment = some s) : l.Holds (.string s) c := by
  have hgiven : l.given? (layers environment file) = some (.string s) :=
    given?_overlayEnvironment_of_set hs (overlayFile ({} : Config).entries file)
  rcases leaf_of_ofEntries h l with ⟨-, habsent, -⟩ | ⟨x, j, hx, hj, hat⟩
  · rw [given?_eq_none_of_area habsent] at hgiven
    cases hgiven
  · obtain rfl : x = .string s := Option.some.inj (hx.symm.trans hgiven)
    exact ⟨j, hj, hat⟩

theorem holds_of_defined (h : ofEntries (layers environment file) = .ok c)
    (hs : l.setting? environment = none) {x : Value} (hx : l.defined? file = some x) :
    l.Holds x c := by
  rcases leaf_of_ofEntries h l with ⟨-, habsent, -⟩ | ⟨y, j, hy, hj, hat⟩
  · have hnone := (absent_overlayFile (at?_eq_none_of_overlayEnvironment habsent)).1
    rw [hx] at hnone
    cases hnone
  · rcases given?_overlayFile (given?_of_overlayEnvironment hs hy)
      (Kind.ne_table_of_convert hj) with hfile | ⟨hnone, -⟩
    · obtain rfl : y = x := Option.some.inj (hfile.symm.trans hx)
      exact ⟨j, hj, hat⟩
    · rw [hx] at hnone
      cases hnone

theorem holds_of_override (h : ofEntries (layers environment file) = .ok c) {x : Value}
    (hx : l.override? environment file = some x) : l.Holds x c := by
  cases hset : l.setting? environment with
  | some s =>
    rw [override?, hset] at hx
    obtain rfl : Value.string s = x := Option.some.inj hx
    exact holds_of_set h hset
  | none =>
    rw [override?, hset] at hx
    exact holds_of_defined h hset hx

theorem at?_builtin_of_absent
    (h : (Value.table ({} : Config).entries).at? l.area.path = none) :
    ({} : Config).toJson.at? l.path = none := by
  rcases leaf_of_ofEntries ofEntries_builtin l with ⟨-, -, hnone⟩ | ⟨x, _, hx, -, -⟩
  · exact hnone
  · rw [given?_eq_none_of_area h] at hx
    cases hx

theorem at?_builtin_of_given {x : Value} {j : Json}
    (hx : l.given? ({} : Config).entries = some x) (hj : l.kind.convert x = .ok j) :
    ({} : Config).toJson.at? l.path = some j := by
  rcases leaf_of_ofEntries ofEntries_builtin l with ⟨-, hnone, -⟩ | ⟨y, k, hy, hk, hat⟩
  · rw [given?_eq_none_of_area hnone] at hx
    cases hx
  · obtain rfl : y = x := Option.some.inj (hy.symm.trans hx)
    obtain rfl : k = j := Except.ok.inj (hk.symm.trans hj)
    exact hat

/-- A leaf that neither a variable nor the file gives is the built-in one. Only a printer is gone
with the others if the file has replaced them. -/
theorem at?_of_silent (h : ofEntries (layers environment file) = .ok c)
    (hnone : l.override? environment file = none) :
    c.toJson.at? l.path =
      if l.area.isPrinter && replacesGroup "printers" file then none
      else ({} : Config).toJson.at? l.path := by
  obtain ⟨hs, hfile⟩ := override?_eq_none_iff.mp hnone
  rcases leaf_of_ofEntries h l with ⟨hprinter, habsent, hat⟩ | ⟨x, j, hx, hj, hat⟩
  · have hgone := (absent_overlayFile (at?_eq_none_of_overlayEnvironment habsent)).2
    rw [Area.key_eq_of_isPrinter hprinter] at hgone
    rw [hat, hprinter, Bool.true_and]
    cases hreplaces : replacesGroup "printers" file with
    | true => rfl
    | false => exact (at?_builtin_of_absent (hgone hreplaces)).symm
  · rcases given?_overlayFile (given?_of_overlayEnvironment hs hx)
      (Kind.ne_table_of_convert hj) with hdefined | ⟨-, hkept, hgiven⟩
    · rw [hfile] at hdefined
      cases hdefined
    · have hcondition : (l.area.isPrinter && replacesGroup "printers" file) = false := by
        cases hprinter : l.area.isPrinter with
        | false => rfl
        | true => exact Area.key_eq_of_isPrinter hprinter ▸ hkept
      rw [hcondition, hat]
      exact (at?_builtin_of_given hgiven hj).symm

/-- With the same file a leaf depends only on its own variable. -/
theorem at?_congr {environment' : String → Option String} {c' : Config}
    (h : ofEntries (layers environment file) = .ok c)
    (h' : ofEntries (layers environment' file) = .ok c')
    (hs : l.setting? environment' = l.setting? environment) :
    c'.toJson.at? l.path = c.toJson.at? l.path := by
  have hoverride : l.override? environment' file = l.override? environment file := by
    rw [override?, override?, hs]
  cases hx : l.override? environment file with
  | some x =>
    obtain ⟨j, hj, hat⟩ := holds_of_override h hx
    obtain ⟨k, hk, hat'⟩ := holds_of_override h' (hoverride.trans hx)
    obtain rfl : j = k := Except.ok.inj (hj.symm.trans hk)
    rw [hat, hat']
  | none => rw [at?_of_silent h hx, at?_of_silent h' (hoverride.trans hx)]

end Leaf

/-! ### Loading -/

/-- Loads with the variables laid in a given order. -/
def loadInOrder (order : List (String × List String)) (file : File)
    (environment : String → Option String) : Load Config := do
  let builtin : Config := {}
  ofEntries (layVariables environment order (overlayFile builtin.entries (← file.entries)))

variable {file : File} {environment : String → Option String}

theorem load_eq {es : Entries} (h : file.entries = .ok es) :
    load file environment = ofEntries (layers environment es) := by
  rw [load, h]
  rfl

theorem loadInOrder_of_perm {order : List (String × List String)}
    (h : order.Perm environmentOverrides) :
    loadInOrder order file environment = load file environment := by
  simp only [loadInOrder, load, layVariables_perm h]

/-- What a configuration is made of, leaf by leaf. -/
structure Layered (environment : String → Option String) (file : Entries) (c : Config) : Prop where
  /-- A variable that is set gives its own leaf. -/
  ofVariable : ∀ v ∈ environmentOverrides, ∀ s, environment v.1 = some s →
    ∃ l : Leaf, l.path = v.2 ∧ l.Holds (.string s) c
  /-- Any other leaf is what the file defines. -/
  ofFile : ∀ l : Leaf, l.setting? environment = none → ∀ x, l.defined? file = some x → l.Holds x c
  /-- If the file defines nothing, the leaf is built in. But a file that puts something else in the
  place of all printers takes those away that nothing gives anew. -/
  ofBuiltin : ∀ l : Leaf, l.setting? environment = none → l.defined? file = none →
    c.toJson.at? l.path =
      if l.area.isPrinter && replacesGroup "printers" file then none
      else ({} : Config).toJson.at? l.path

theorem layered_of_ofEntries {es : Entries} {c : Config}
    (h : ofEntries (layers environment es) = .ok c) : Layered environment es c where
  ofVariable v hv s hset := by
    obtain ⟨l, hpath⟩ := exists_leaf_of_mem v hv
    exact ⟨l, hpath, Leaf.holds_of_set h ((Leaf.setting?_eq_of_mem hv hpath).trans hset)⟩
  ofFile l hset x hx := Leaf.holds_of_defined h hset hx
  ofBuiltin l hset hfile :=
    Leaf.at?_of_silent h (Leaf.override?_eq_none_iff.mpr ⟨hset, hfile⟩)

/-- A configuration is loaded leaf by leaf. What a file with plain keys defines is what stands in
it. Another value of one variable changes no other leaf, the order of the variables changes nothing,
and there is no configuration if one of its leaves cannot be converted. -/
theorem load_layers (file : File) (environment : String → Option String) :
    (∀ c, load file environment = .ok c → ∃ es, file.entries = .ok es ∧
      Layered environment es c ∧
      (PlainFile es → ∀ l : Leaf,
        (∀ x, (∀ xs, x ≠ .table xs) → (l.defined? es = some x ↔ l.given? es = some x)) ∧
        (l.given? es = none → l.defined? es = none)) ∧
      (∀ v ∈ environmentOverrides, ∀ environment',
        (∀ name, name ≠ v.1 → environment' name = environment name) →
        ∀ c', load file environment' = .ok c' →
          ∀ l : Leaf, l.path ≠ v.2 → c'.toJson.at? l.path = c.toJson.at? l.path)) ∧
    (∀ order, order.Perm environmentOverrides →
      loadInOrder order file environment = load file environment) ∧
    (∀ es, file.entries = .ok es → ∀ (l : Leaf) (x : Value) (e : Error),
      l.override? environment es = some x → l.kind.convert x = .error e →
        ∃ e', load file environment = .error e') := by
  refine ⟨?_, fun order h => loadInOrder_of_perm h, ?_⟩
  · intro c hload
    obtain ⟨es, hes, hlayers⟩ := exists_of_bind_eq_ok hload
    refine ⟨es, hes, layered_of_ofEntries hlayers, ?_, ?_⟩
    · intro hplain l
      exact ⟨fun x hx => Leaf.defined?_eq_some_iff_of_plain hplain hx,
        Leaf.defined?_eq_none_of_plain hplain⟩
    · intro v hv environment' hother c' hload' l hpath
      rw [load_eq hes] at hload'
      exact Leaf.at?_congr hlayers hload' (Leaf.setting?_congr hv hother hpath)
  · intro es hes l x e hx he
    cases hload : load file environment with
    | error e' => exact ⟨e', rfl⟩
    | ok c =>
      rw [load_eq hes] at hload
      obtain ⟨j, hj, -⟩ := Leaf.holds_of_override hload hx
      rw [he] at hj
      cases hj

theorem exists_of_toOption_any {α : Type} {x : Load α} {p : α → Bool} (h : x.toOption.any p) :
    ∃ a, x = .ok a ∧ p a := by
  cases x with
  | error e => cases h
  | ok a => exact ⟨a, rfl, h⟩

/-- A host of the file below the variable of the host, and a time limit of the file. -/
theorem load_layers_host :
    ∃ es c,
      File.entries (.text "[database]\nhost = \"low\"\n[timeouts]\nlive = 250\n") = .ok es ∧
      load (.text "[database]\nhost = \"low\"\n[timeouts]\nlive = 250\n")
        (fun name => if name = "DB_HOST" then some "high" else none) = .ok c ∧
      (∃ l : Leaf, l.path = ["database", "host"] ∧ l.Holds (.string "high") c) ∧
      PlainFile es ∧
      (∃ l : Leaf, l.path = ["timeouts", "live"] ∧
        ∃ x, l.given? es = some x ∧ l.Holds x c ∧ c.timeouts.live = 250) ∧
      c.toJson.at? ["timeouts", "report"] = some (.natural 1500) := by
  let live : Leaf := ⟨.timeouts, 1, "live", .long, rfl⟩
  let report : Leaf := ⟨.timeouts, 3, "report", .long, rfl⟩
  obtain ⟨c, hload, hlimit⟩ : ∃ c,
      load (.text "[database]\nhost = \"low\"\n[timeouts]\nlive = 250\n")
        (fun name => if name = "DB_HOST" then some "high" else none) = .ok c ∧
          c.timeouts.live == 250 :=
    exists_of_toOption_any (by decide +kernel)
  obtain ⟨es, hes, hlayers, hplainFile, -⟩ := (load_layers _ _).1 c hload
  obtain ⟨es', hes', hfile⟩ : ∃ es,
      File.entries (.text "[database]\nhost = \"low\"\n[timeouts]\nlive = 250\n") = .ok es ∧
        (decide (PlainFile es) && (live.defined? es).isSome && (report.given? es).isNone) :=
    exists_of_toOption_any (by decide +kernel)
  obtain rfl : es = es' := Except.ok.inj (hes.symm.trans hes')
  simp only [Bool.and_eq_true, decide_eq_true_eq, Option.isNone_iff_eq_none,
    Option.isSome_iff_exists] at hfile
  obtain ⟨⟨hplain, x, hx⟩, hreport⟩ := hfile
  have hlive : live.Holds x c := hlayers.ofFile live (by decide +kernel) x hx
  have hgiven : live.given? es = some x := by
    obtain ⟨j, hj, -⟩ := hlive
    exact ((hplainFile hplain live).1 x (Kind.ne_table_of_convert hj)).mp hx
  refine ⟨es, c, hes, hload, hlayers.ofVariable ("DB_HOST", ["database", "host"]) ?_ "high" rfl,
    hplain, ⟨live, rfl, x, hgiven, hlive, beq_iff_eq.mp hlimit⟩, ?_⟩
  · decide +kernel
  · exact hlayers.ofBuiltin report (by decide +kernel) ((hplainFile hplain report).2 hreport)

/-- The settings of one printer. -/
def printerSettings (name : String) : Option String :=
  [("ZEBRA_1_HOST", "a"), ("ZEBRA_1_PORT", "1"), ("ZEBRA_1_NAME", "n"),
    ("ZEBRA_1_MODEL", "m")].lookup name

/-- A number in the place of all printers gives way to the variables of one. The other is gone, of
which the file says nothing. -/
theorem not_every_silent_leaf_builtin :
    ∃ (c : Config) (es : Entries) (l : Leaf),
      load (.text "printers = 5\n") printerSettings = .ok c ∧
      File.entries (.text "printers = 5\n") = .ok es ∧
      l.path = ["printers", "zebra-2", "host"] ∧
      l.setting? printerSettings = none ∧ l.defined? es = none ∧ c.toJson.at? l.path = none ∧
      ({} : Config).toJson.at? l.path = some (.string "zebra-printer-2") := by
  let l : Leaf := ⟨.printer "zebra-2", 0, "host", .text, rfl⟩
  obtain ⟨c, hload, hc⟩ : ∃ c, load (.text "printers = 5\n") printerSettings = .ok c ∧
      (c.toJson.at? l.path).isNone :=
    exists_of_toOption_any (by decide +kernel)
  obtain ⟨es, hes, hfile⟩ : ∃ es, File.entries (.text "printers = 5\n") = .ok es ∧
      (l.defined? es).isNone :=
    exists_of_toOption_any (by decide +kernel)
  refine ⟨c, es, l, hload, hes, rfl, ?_, Option.isNone_iff_eq_none.mp hfile,
    Option.isNone_iff_eq_none.mp hc, ?_⟩
  · decide +kernel
  · rfl

end LabelFleet.Config
