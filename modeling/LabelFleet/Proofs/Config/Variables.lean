import LabelFleet.Proofs.Config.Leaves
import Mathlib.Data.List.Pairwise
import Mathlib.Data.List.Perm.Basic

/-! The layer of the variables. Each variable that is set puts one value in its own place, and takes
nothing away from the places of the others, so the variables may come in any order. -/
namespace LabelFleet.Config

/-! ### Values put in a place -/

/-- Puts a value in the place that a path of names leads to. Whatever is no table gives way to
one. -/
def put (x : Value) : List String → Value → Value
  | [], _ => x
  | name :: names, below =>
    let inner := put x names ((below.entries.lookup name).getD .nothing)
    .table (insertEntry name inner below.entries)

/-- Neither of two paths leads through the other. -/
def Apart (p q : List String) : Prop := ¬ p <+: q ∧ ¬ q <+: p

instance (p q : List String) : Decidable (Apart p q) := inferInstanceAs (Decidable (_ ∧ _))

theorem Apart.symm {p q : List String} (h : Apart p q) : Apart q p := ⟨h.2, h.1⟩

theorem Apart.of_cons {name : String} {p q : List String} (h : Apart (name :: p) (name :: q)) :
    Apart p q := by
  simpa [Apart] using h

variable {x y : Value} {p q : List String}

/-- A path of at least one name leads nowhere where nothing is. -/
theorem Value.bind_at?_eq (o : Option Value) (hq : q ≠ []) :
    (o.getD .nothing).at? q = o.bind (Value.at? q) := by
  cases o with
  | some v => rfl
  | none =>
    cases q with
    | nil => contradiction
    | cons name names => rfl

theorem at?_put_self (below : Value) : (put x p below).at? p = some x := by
  induction p generalizing below with
  | nil => rfl
  | cons name names ih =>
    change ((insertEntry name _ below.entries).lookup name).bind _ = _
    rw [lookup_insertEntry, if_pos rfl]
    exact ih _

theorem at?_put_of_apart (h : Apart p q) (below : Value) : (put x p below).at? q = below.at? q := by
  induction p generalizing q below with
  | nil => exact absurd List.nil_prefix h.1
  | cons name names ih =>
    cases q with
    | nil => exact absurd List.nil_prefix h.2
    | cons name' names' =>
      change ((insertEntry name _ below.entries).lookup name').bind _ = _
      rw [lookup_insertEntry]
      by_cases heq : name' = name
      · subst heq
        have hrest : Apart names names' := h.of_cons
        have hne : names' ≠ [] := fun hnil => hrest.2 (hnil ▸ List.nil_prefix)
        rw [if_pos rfl]
        exact (ih hrest _).trans (Value.bind_at?_eq _ hne)
      · rw [if_neg heq]
        rfl

/-- What is in front of the place of a value is a table. -/
theorem exists_table_at?_put (hbelow : q <+: p) (hne : q ≠ p) (below : Value) :
    ∃ es, (put x p below).at? q = some (.table es) := by
  induction q generalizing p below with
  | nil =>
    cases p with
    | nil => contradiction
    | cons name names => exact ⟨_, rfl⟩
  | cons name names ih =>
    obtain ⟨rest, rfl⟩ := hbelow
    have hrest : names ≠ names ++ rest := fun heq => hne (congrArg (name :: ·) heq)
    obtain ⟨es, hes⟩ := ih (List.prefix_append names rest) hrest
      ((below.entries.lookup name).getD .nothing)
    refine ⟨es, ?_⟩
    change ((insertEntry name _ below.entries).lookup name).bind _ = _
    rw [lookup_insertEntry, if_pos rfl]
    exact hes

/-- Values are put in places apart from each other in any order. -/
theorem put_comm (h : Apart p q) (below : Value) :
    put x p (put y q below) = put y q (put x p below) := by
  induction p generalizing q below with
  | nil => exact absurd List.nil_prefix h.1
  | cons name names ih =>
    cases q with
    | nil => exact absurd List.nil_prefix h.2
    | cons name' names' =>
      change Value.table (insertEntry name (put x names
          (((insertEntry name' _ below.entries).lookup name).getD .nothing))
            (insertEntry name' _ _)) =
        Value.table (insertEntry name' (put y names'
          (((insertEntry name _ below.entries).lookup name').getD .nothing)) (insertEntry name _ _))
      rw [lookup_insertEntry, lookup_insertEntry]
      by_cases heq : name = name'
      · subst heq
        rw [if_pos rfl, if_pos rfl, insertEntry_insertEntry_self, insertEntry_insertEntry_self]
        exact congrArg (fun v => Value.table (insertEntry name v _)) (ih h.of_cons _)
      · rw [if_neg heq, if_neg (Ne.symm heq), insertEntry_comm heq]

/-! ### Variables put in their places -/

/-- Lays variables over a layer, one after another. -/
def layVariables (environment : String → Option String) (vars : List (String × List String))
    (below : Entries) : Entries :=
  vars.foldl
    (fun below (name, path) =>
      match environment name with
      | some s => (overlayAt (.string s) (.ofNames path) (.table below)).entries
      | none => below)
    below

theorem overlayEnvironment_eq (environment : String → Option String) (below : Entries) :
    overlayEnvironment environment below =
      layVariables environment environmentOverrides below := rfl

variable (environment : String → Option String)

def putVariable (below : Value) (v : String × List String) : Value :=
  match environment v.1 with
  | some s => put (.string s) v.2 below
  | none => below

/-- The path of a variable has a name, and all its names are in lower case. -/
def Proper (v : String × List String) : Prop := v.2 ≠ [] ∧ ∀ name ∈ v.2, Text.lower name = name

theorem overlayAt_ofNames {names : List String} (h : ∀ name ∈ names, Text.lower name = name)
    (s : String) (below : Value) :
    overlayAt (.string s) (.ofNames names) below = put (.string s) names below := by
  induction names generalizing below with
  | nil => rfl
  | cons name names ih =>
    obtain ⟨hname, hnames⟩ := List.forall_mem_cons.mp h
    cases names with
    | nil =>
      change Value.table (overlayEntries below.entries [(name, .string s)]) = _
      simp only [overlayEntries, overlay, hname]
      rfl
    | cons name' names =>
      change Value.table (insertEntry (Text.lower name) (overlayAt (.string s)
        (Path.ofNames (name' :: names)) ((below.entries.lookup (Text.lower name)).getD .nothing))
          below.entries) = _
      rw [hname, ih hnames]
      rfl

variable {environment}

theorem table_layVariables {vars : List (String × List String)}
    (h : ∀ v ∈ vars, Proper v) (below : Entries) :
    Value.table (layVariables environment vars below) =
      vars.foldl (putVariable environment) (.table below) := by
  induction vars generalizing below with
  | nil => rfl
  | cons v vars ih =>
    obtain ⟨⟨hne, hlower⟩, hvars⟩ := List.forall_mem_cons.mp h
    obtain ⟨name, path⟩ := v
    rw [layVariables, List.foldl_cons, List.foldl_cons, putVariable]
    dsimp only
    cases environment name with
    | none => exact ih hvars below
    | some s =>
      dsimp only
      rw [overlayAt_ofNames hlower]
      cases path with
      | nil => contradiction
      | cons first path => exact ih hvars _

variable {vars : List (String × List String)} {v : String × List String} {s : String}

theorem at?_foldl_putVariable_of_apart
    (h : ∀ v ∈ vars, (environment v.1).isSome → Apart v.2 q) (below : Value) :
    (vars.foldl (putVariable environment) below).at? q = below.at? q := by
  induction vars generalizing below with
  | nil => rfl
  | cons v vars ih =>
    obtain ⟨hv, hvars⟩ := List.forall_mem_cons.mp h
    rw [List.foldl_cons, ih hvars, putVariable]
    cases henv : environment v.1 with
    | none => rfl
    | some s => exact at?_put_of_apart (hv (by rw [henv]; rfl)) below

theorem at?_foldl_putVariable_of_mem (hapart : vars.Pairwise fun v w => Apart v.2 w.2)
    (hmem : v ∈ vars) (hset : environment v.1 = some s) (below : Value) :
    (vars.foldl (putVariable environment) below).at? v.2 = some (.string s) := by
  induction vars generalizing below with
  | nil => cases hmem
  | cons w vars ih =>
    obtain ⟨hw, hvars⟩ := List.pairwise_cons.mp hapart
    rw [List.foldl_cons]
    rcases List.mem_cons.mp hmem with rfl | hmem
    · rw [at?_foldl_putVariable_of_apart fun u hu _ => (hw u hu).symm, putVariable, hset]
      exact at?_put_self below
    · exact ih hvars hmem _

/-- A table stays a table as long as no value takes its place. -/
theorem exists_table_foldl_putVariable (h : ∀ v ∈ vars, ¬ v.2 <+: q) {below : Value}
    (htable : ∃ es, below.at? q = some (.table es)) :
    ∃ es, (vars.foldl (putVariable environment) below).at? q = some (.table es) := by
  induction vars generalizing below with
  | nil => exact htable
  | cons v vars ih =>
    obtain ⟨hv, hvars⟩ := List.forall_mem_cons.mp h
    rw [List.foldl_cons]
    apply ih hvars
    rw [putVariable]
    cases environment v.1 with
    | none => exact htable
    | some s =>
      by_cases hbelow : q <+: v.2
      · exact exists_table_at?_put hbelow (fun heq => hv (heq ▸ List.prefix_refl q)) below
      · have hapart : Apart v.2 q := ⟨hv, hbelow⟩
        simpa only [at?_put_of_apart hapart] using htable

/-- In front of the place of a variable that is set there is a table. -/
theorem exists_table_of_set (h : ∀ v ∈ vars, ¬ v.2 <+: q) (hmem : v ∈ vars)
    (hset : environment v.1 = some s) (hbelow : q <+: v.2) (below : Value) :
    ∃ es, (vars.foldl (putVariable environment) below).at? q = some (.table es) := by
  induction vars generalizing below with
  | nil => cases hmem
  | cons w vars ih =>
    obtain ⟨hw, hvars⟩ := List.forall_mem_cons.mp h
    rw [List.foldl_cons]
    rcases List.mem_cons.mp hmem with rfl | hmem
    · apply exists_table_foldl_putVariable hvars
      rw [putVariable, hset]
      exact exists_table_at?_put hbelow (fun heq => hw (heq ▸ List.prefix_refl q)) below
    · exact ih hvars hmem _

/-- Variables with places apart from each other may come in any order. -/
theorem foldl_putVariable_perm {others : List (String × List String)}
    (hapart : vars.Pairwise fun v w => Apart v.2 w.2) (hperm : others.Perm vars)
    (below : Value) :
    others.foldl (putVariable environment) below =
      vars.foldl (putVariable environment) below := by
  have hsymm : Std.Symm fun v w : String × List String => Apart v.2 w.2 :=
    ⟨fun _ _ => Apart.symm⟩
  refine (hperm.symm.foldl_eq' ?_ below).symm
  intro v hv w hw below
  by_cases heq : v = w
  · rw [heq]
  · have hvw : Apart v.2 w.2 := hapart.forall hv hw heq
    unfold putVariable
    cases environment v.1 with
    | none => rfl
    | some s =>
      cases environment w.1 with
      | none => rfl
      | some t => exact (put_comm hvw below).symm

/-! ### The variables of the configuration -/

theorem proper_of_mem : ∀ v ∈ environmentOverrides, Proper v := by
  unfold Proper
  decide +kernel

theorem environmentOverrides_apart : environmentOverrides.Pairwise fun v w => Apart v.2 w.2 := by
  decide +kernel

/-- The order of the variables does not matter. -/
theorem layVariables_perm {order : List (String × List String)}
    (h : order.Perm environmentOverrides) (below : Entries) :
    layVariables environment order below = overlayEnvironment environment below := by
  have hproper : ∀ v ∈ order, Proper v := fun v hv => proper_of_mem v (h.mem_iff.mp hv)
  apply Value.table.inj
  rw [table_layVariables hproper, foldl_putVariable_perm environmentOverrides_apart h,
    overlayEnvironment_eq, table_layVariables proper_of_mem]

/-! ### Leaves below the variables -/

theorem Value.at?_concat (names : List String) (name : String) (v : Value) :
    v.at? (names ++ [name]) = (v.at? names).bind fun u => u.entries.lookup name := by
  induction names generalizing v with
  | nil => exact Option.bind_fun_some _
  | cons first names ih =>
    change (v.entries.lookup first).bind (Value.at? (names ++ [name])) = _
    rw [funext ih, Value.at?, Option.bind_assoc]

theorem eq_of_path_eq :
    ∀ v ∈ environmentOverrides, ∀ w ∈ environmentOverrides, v.2 = w.2 → v = w := by
  decide +kernel

theorem eq_of_name_eq :
    ∀ v ∈ environmentOverrides, ∀ w ∈ environmentOverrides, v.1 = w.1 → v = w := by
  decide +kernel

/-- The path of a group is no path of a leaf, nor does it lead through one. -/
theorem Leaf.not_path_prefix_area (l : Leaf) (area : Area) : ¬ l.path <+: area.path := by
  obtain ⟨own, index, name, kind, mem⟩ := l
  cases own <;> cases area <;> simp [Leaf.path, Area.path, List.cons_prefix_cons]

theorem Leaf.apart_of_path_ne {l l' : Leaf} (h : l.path ≠ l'.path) : Apart l.path l'.path := by
  obtain ⟨area, index, name, kind, mem⟩ := l
  obtain ⟨area', index', name', kind', mem'⟩ := l'
  cases area <;> cases area' <;>
    simp_all [Apart, Leaf.path, Area.path, List.cons_prefix_cons, eq_comm]

/-- Each variable has the path of a leaf. -/
theorem exists_leaf_of_mem : ∀ v ∈ environmentOverrides, ∃ l : Leaf, l.path = v.2 := by
  have hfields : ∀ v ∈ environmentOverrides,
      ∃ area ∈ [Area.database, .printer "zebra-1", .printer "zebra-2"],
        ∃ f ∈ area.fields, area.path ++ [f.1] = v.2 := by
    decide +kernel
  intro v hv
  obtain ⟨area, -, f, hf, hpath⟩ := hfields v hv
  obtain ⟨i, hi⟩ := List.getElem?_of_mem hf
  exact ⟨⟨area, i, f.1, f.2, hi⟩, hpath⟩

namespace Leaf

variable {l : Leaf} {below : Entries}

/-- The text of the variable for a leaf. -/
def setting? (environment : String → Option String) (l : Leaf) : Option String :=
  (environmentOverrides.find? fun v => v.2 == l.path).bind fun v => environment v.1

theorem setting?_eq_of_mem (hmem : v ∈ environmentOverrides) (hpath : l.path = v.2) :
    l.setting? environment = environment v.1 := by
  rw [setting?]
  cases hfind : environmentOverrides.find? fun w => w.2 == l.path with
  | none =>
    have hnot := List.find?_eq_none.mp hfind v hmem
    exact absurd (beq_iff_eq.mpr hpath.symm) hnot
  | some w =>
    have hw : w.2 = l.path := by simpa using List.find?_some hfind
    rw [eq_of_path_eq w (List.mem_of_find?_eq_some hfind) v hmem (hw.trans hpath)]
    rfl

theorem exists_of_setting? (h : l.setting? environment = some s) :
    ∃ v ∈ environmentOverrides, v.2 = l.path ∧ environment v.1 = some s := by
  obtain ⟨v, hfind, hset⟩ := Option.bind_eq_some_iff.mp h
  have hpath : v.2 = l.path := by simpa using List.find?_some hfind
  exact ⟨v, List.mem_of_find?_eq_some hfind, hpath, hset⟩

/-- A variable is the setting of one leaf, and no other leaf has it. -/
theorem setting?_congr {environment' : String → Option String} (hv : v ∈ environmentOverrides)
    (hother : ∀ name, name ≠ v.1 → environment' name = environment name) (hpath : l.path ≠ v.2) :
    l.setting? environment' = l.setting? environment := by
  rw [setting?, setting?]
  cases hfind : environmentOverrides.find? fun w => w.2 == l.path with
  | none => rfl
  | some w =>
    have hw : w.2 = l.path := by simpa using List.find?_some hfind
    have hname : w.1 ≠ v.1 := by
      intro heq
      obtain rfl := eq_of_name_eq w (List.mem_of_find?_eq_some hfind) v hv heq
      exact hpath hw.symm
    exact hother w.1 hname

/-- In a group that is a table, a leaf has the value that its path leads to. -/
theorem given?_eq_at? {es : Entries} (h : (Value.table below).at? l.area.path = some (.table es)) :
    l.given? below = (Value.table below).at? l.path := by
  rw [given?, path, Value.at?_concat, h]
  rfl

theorem given?_eq_some_of_at? {x : Value} (h : (Value.table below).at? l.path = some x) :
    l.given? below = some x := by
  rw [path, Value.at?_concat] at h
  obtain ⟨group, hgroup, hx⟩ := Option.bind_eq_some_iff.mp h
  cases group with
  | table es =>
    rw [given?, hgroup]
    exact hx
  | _ => cases hx

end Leaf

/-- The variables turn a group into a table, or they do not touch it. -/
theorem table_or_eq_of_overlayEnvironment (environment : String → Option String) (area : Area)
    (below : Entries) :
    (∃ es, (Value.table (overlayEnvironment environment below)).at? area.path =
      some (.table es)) ∨
    (Value.table (overlayEnvironment environment below)).at? area.path =
      (Value.table below).at? area.path := by
  rw [overlayEnvironment_eq, table_layVariables proper_of_mem]
  have hnot : ∀ v ∈ environmentOverrides, ¬ v.2 <+: area.path := by
    intro v hv
    obtain ⟨l, hl⟩ := exists_leaf_of_mem v hv
    exact hl ▸ l.not_path_prefix_area area
  by_cases hset : ∃ v ∈ environmentOverrides, (environment v.1).isSome ∧ area.path <+: v.2
  · obtain ⟨v, hv, hsome, hbelow⟩ := hset
    obtain ⟨s, hs⟩ := Option.isSome_iff_exists.mp hsome
    exact .inl (exists_table_of_set hnot hv hs hbelow _)
  · right
    apply at?_foldl_putVariable_of_apart
    exact fun v hv hsome => ⟨hnot v hv, fun hbelow => hset ⟨v, hv, hsome, hbelow⟩⟩

/-- The variables take no group away. -/
theorem at?_eq_none_of_overlayEnvironment {area : Area} {below : Entries}
    (h : (Value.table (overlayEnvironment environment below)).at? area.path = none) :
    (Value.table below).at? area.path = none := by
  rcases table_or_eq_of_overlayEnvironment environment area below with ⟨es, hes⟩ | heq
  · rw [hes] at h
    cases h
  · exact heq ▸ h

namespace Leaf

variable {l : Leaf} {below : Entries}

/-- A variable gives its leaf, whatever is below. -/
theorem given?_overlayEnvironment_of_set (h : l.setting? environment = some s)
    (below : Entries) : l.given? (overlayEnvironment environment below) = some (.string s) := by
  obtain ⟨v, hv, hpath, hset⟩ := exists_of_setting? h
  apply given?_eq_some_of_at?
  rw [overlayEnvironment_eq, table_layVariables proper_of_mem, ← hpath]
  exact at?_foldl_putVariable_of_mem environmentOverrides_apart hv hset _

/-- A leaf without a variable is what it is below, if it is there at all: a list in the place of its
group gives way to the variables of the other leaves. -/
theorem given?_of_overlayEnvironment (h : l.setting? environment = none) {x : Value}
    (hx : l.given? (overlayEnvironment environment below) = some x) : l.given? below = some x := by
  rcases table_or_eq_of_overlayEnvironment environment l.area below with ⟨es, hes⟩ | heq
  · apply given?_eq_some_of_at?
    rw [given?_eq_at? hes, overlayEnvironment_eq, table_layVariables proper_of_mem,
      at?_foldl_putVariable_of_apart] at hx
    · exact hx
    · intro v hv hset
      obtain ⟨l', hl'⟩ := exists_leaf_of_mem v hv
      rw [← hl']
      apply apart_of_path_ne
      intro hpath
      rw [setting?_eq_of_mem hv (hpath.symm.trans hl')] at h
      simp [h] at hset
  · rw [given?, heq] at hx
    exact hx

end Leaf

end LabelFleet.Config
