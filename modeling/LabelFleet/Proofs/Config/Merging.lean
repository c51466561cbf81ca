import LabelFleet.Proofs.Config.Leaves

/-! What a file adds to the layers below it. The same entries are laid over built-in values and over
nothing. Wherever the results differ the file says nothing, and the built-in value is still there,
unless the file has put something else in the place of a whole table. -/
namespace LabelFleet.Config

/-! ### Changes below a key -/

/-- What stands in a place after a value has been laid over what a path leads to from there. A path
without steps leads to the place itself. -/
def change (value : Value) : Path → Option Value → Value
  | [], below => overlay below value
  | .name k :: path, below =>
    let es := (below.getD .nothing).entries
    .table (insertEntry (Text.lower k) (change value path (es.lookup (Text.lower k))) es)
  | .index i :: path, below =>
    .list (changeItem (fun v => overlayAt value path v) i (below.getD .nothing).items)

theorem overlayAt_eq_change (value : Value) (step : Step) (path : Path) (below : Option Value) :
    overlayAt value (step :: path) (below.getD .nothing) = change value (step :: path) below := by
  induction path generalizing step below with
  | nil =>
    cases step with
    | name k => simp only [overlayAt, change, overlayEntries]
    | index i => rfl
  | cons next path ih =>
    cases step with
    | name k =>
      change Value.table (insertEntry _ (overlayAt value (next :: path) _) _) = _
      rw [ih]
      rfl
    | index i => rfl

/-- The path that a key of a file stands for. -/
def keyPath (key : String) : Path :=
  let key := Text.lower key
  (Path.ofKey? key).getD [.name key]

theorem exists_keyPath_eq (key : String) : ∃ name path, keyPath key = .name name :: path := by
  rw [keyPath]
  cases hpath : Path.ofKey? (Text.lower key) with
  | none => exact ⟨_, [], rfl⟩
  | some path =>
    rw [Path.ofKey?] at hpath
    obtain ⟨⟨step, rest⟩, hname, hpath⟩ := Option.bind_eq_some_iff.mp hpath
    obtain ⟨steps, -, hpath⟩ := Option.bind_eq_some_iff.mp hpath
    cases hpath
    rw [Path.name?] at hname
    split at hname
    · cases hname
    · cases hname
      exact ⟨_, steps, rfl⟩

/-- Lays one entry of a file over the layers below. -/
def edit (below : Entries) (e : String × Value) : Entries :=
  (overlayAt e.2 (keyPath e.1) (.table below)).entries

theorem overlayFile_eq (below file : Entries) :
    overlayFile below file = file.foldl edit below := rfl

theorem lookup_edit {e : String × Value} {name : String} {path : Path}
    (h : keyPath e.1 = .name name :: path) (below : Entries) (k : String) :
    (edit below e).lookup k =
      if k = Text.lower name then some (change e.2 path (below.lookup k)) else below.lookup k := by
  have hedit : edit below e = insertEntry (Text.lower name)
      (change e.2 path (below.lookup (Text.lower name))) below := by
    rw [edit, h]
    exact congrArg Value.entries (overlayAt_eq_change e.2 (.name name) path (some (.table below)))
  rw [hedit, lookup_insertEntry]
  by_cases hk : k = Text.lower name
  · rw [if_pos hk, if_pos hk, hk]
  · rw [if_neg hk, if_neg hk]

/-! ### Values without lists -/

mutual

/-- There is no list in the value. -/
def Value.listless : Value → Bool
  | .list _ => false
  | .table es => entriesListless es
  | _ => true

def entriesListless : Entries → Bool
  | [] => true
  | (_, v) :: es => v.listless && entriesListless es

end

theorem listless_of_lookup {es : Entries} (h : entriesListless es) {k : String} {v : Value}
    (hv : es.lookup k = some v) : v.listless := by
  induction es with
  | nil => cases hv
  | cons e es ih =>
    obtain ⟨hfirst, hrest⟩ := Bool.and_eq_true_iff.mp h
    rw [lookup_cons_eq] at hv
    by_cases hk : k = e.1
    · rw [if_pos hk] at hv
      exact Option.some.inj hv ▸ hfirst
    · rw [if_neg hk] at hv
      exact ih hrest hv

/-! ### Merged values -/

/-- The built-in value of a place, what a file says there, and what results. -/
inductive Merged : Option Value → Option Value → Option Value → Prop
  | replaced (d : Option Value) (v : Value) : Merged d (some v) (some v)
  | untouched (d : Option Value) : Merged d none d
  | empty (v : Value) : Merged (some v) (some (.table [])) (some v)
  | tables {ds fs ss : Entries} (h : ∀ k, Merged (ds.lookup k) (fs.lookup k) (ss.lookup k)) :
      Merged (some (.table ds)) (some (.table fs)) (some (.table ss))

/-- A change of one entry merges tables that were merged before. -/
theorem merged_insertEntry {ds : String → Option Value} {fs ss : Entries}
    (h : ∀ k, Merged (ds k) (fs.lookup k) (ss.lookup k)) {key : String} {v w : Value}
    (hkey : Merged (ds key) (some v) (some w)) (k : String) :
    Merged (ds k) ((insertEntry key v fs).lookup k) ((insertEntry key w ss).lookup k) := by
  rw [lookup_insertEntry, lookup_insertEntry]
  by_cases hk : k = key
  · rw [if_pos hk, if_pos hk, hk]
    exact hkey
  · rw [if_neg hk, if_neg hk]
    exact h k

/-- A table over a value of another type replaces it if it says anything. -/
theorem merged_overlay_table_of_ne {v : Value} (hv : ∀ ds, v ≠ .table ds) (es : Entries) :
    Merged (some v) (some (.table (overlayEntries [] es)))
      (some (overlay (some v) (.table es))) := by
  have hoverlay : overlay (some v) (.table es) =
      if es.isEmpty then v else .table (overlayEntries [] es) := by
    cases v with
    | table ds => exact absurd rfl (hv ds)
    | _ => rfl
  rw [hoverlay]
  cases es with
  | nil => exact .empty v
  | cons e es => exact .replaced _ _

mutual

theorem Merged.overlay {d f s : Option Value} (h : Merged d f s) :
    ∀ v : Value, Merged d (some (overlay f v)) (some (overlay s v))
  | .table es => by
    -- Without a value of the file, or with an empty table, the built-in value is below the table.
    have hfirst : Merged d (some (.table (overlayEntries [] es)))
        (some (Config.overlay d (.table es))) := by
      cases d with
      | none => exact .replaced _ _
      | some v =>
        by_cases hv : ∃ ds, v = .table ds
        · obtain ⟨ds, rfl⟩ := hv
          exact .tables (merged_overlayEntries (fun k => .untouched _) es)
        · exact merged_overlay_table_of_ne (fun ds hds => hv ⟨ds, hds⟩) es
    cases h with
    | replaced d v => exact .replaced _ _
    | untouched d => exact hfirst
    | empty v => exact hfirst
    | tables h => exact .tables (merged_overlayEntries h es)
  | .nothing => .replaced _ _
  | .string _ => .replaced _ _
  | .integer _ => .replaced _ _
  | .float _ => .replaced _ _
  | .bool _ => .replaced _ _
  | .list _ => .replaced _ _

theorem merged_overlayEntries {ds : String → Option Value} {fs ss : Entries}
    (h : ∀ k, Merged (ds k) (fs.lookup k) (ss.lookup k)) :
    ∀ (es : Entries) (k : String),
      Merged (ds k) ((overlayEntries fs es).lookup k) ((overlayEntries ss es).lookup k)
  | [], k => h k
  | (_, v) :: es, k => merged_overlayEntries (merged_insertEntry h ((h _).overlay v)) es k

end

/-- Where results differ there is a built-in table, and it is merged entry by entry. -/
theorem Merged.entries {d f s : Option Value} (h : Merged d f s) :
    (f.getD .nothing).entries = (s.getD .nothing).entries ∨
      ∃ ds, d = some (.table ds) ∧ ∀ k, Merged (ds.lookup k)
        ((f.getD .nothing).entries.lookup k) ((s.getD .nothing).entries.lookup k) := by
  cases h with
  | replaced d v => exact .inl rfl
  | tables h => exact .inr ⟨_, rfl, h⟩
  | untouched d =>
    match d with
    | some (.table ds) => exact .inr ⟨ds, rfl, fun k => .untouched _⟩
    | none | some .nothing | some (.string _) | some (.integer _) | some (.float _)
    | some (.bool _) | some (.list _) => exact .inl rfl
  | empty v =>
    match v with
    | .table ds => exact .inr ⟨ds, rfl, fun k => .untouched _⟩
    | .nothing | .string _ | .integer _ | .float _ | .bool _ | .list _ => exact .inl rfl

theorem Merged.items {d f s : Option Value} (h : Merged d f s)
    (hd : ∀ v, d = some v → v.listless) :
    (f.getD .nothing).items = (s.getD .nothing).items := by
  have hnone (v : Value) (hv : v.listless) : v.items = [] := by
    cases v with
    | list vs => cases hv
    | _ => rfl
  cases h with
  | replaced d v => rfl
  | tables h => rfl
  | empty v => exact (hnone v (hd v rfl)).symm
  | untouched d =>
    cases d with
    | none => rfl
    | some v => exact (hnone v (hd v rfl)).symm

theorem Merged.change {d f s : Option Value} (h : Merged d f s) (hd : ∀ v, d = some v → v.listless)
    (v : Value) (path : Path) : Merged d (some (change v path f)) (some (change v path s)) := by
  induction path generalizing d f s with
  | nil => exact h.overlay v
  | cons step path ih =>
    cases step with
    | index i =>
      rw [Config.change, Config.change, h.items hd]
      exact .replaced _ _
    | name k =>
      rw [Config.change, Config.change]
      rcases h.entries with heq | ⟨ds, rfl, hentries⟩
      · rw [heq]
        exact .replaced _ _
      · have hds : ∀ v, ds.lookup (Text.lower k) = some v → v.listless :=
          fun v hv => listless_of_lookup (hd _ rfl) hv
        exact .tables (merged_insertEntry hentries (ih (hentries _) hds))

/-- Nothing results only where nothing was and the file says nothing. -/
theorem Merged.eq_none {d f : Option Value} (h : Merged d f none) : d = none ∧ f = none := by
  cases h
  exact ⟨rfl, rfl⟩

/-! ### Tables that are kept -/

/-- A built-in table has been merged with what a file says in its place. -/
inductive Kept (ds : Entries) : Option Value → Option Value → Prop
  | untouched : Kept ds none (some (.table ds))
  | tables {fs ss : Entries} (h : ∀ k, Merged (ds.lookup k) (fs.lookup k) (ss.lookup k)) :
      Kept ds (some (.table fs)) (some (.table ss))

/-- A value, laid over what a path leads to from a table, takes the place of the whole table. -/
def displaces : Value → Path → Bool
  | .table _, [] => false
  | _, [] => true
  | _, .name _ :: _ => false
  | _, .index _ :: _ => true

namespace Kept

variable {ds : Entries} {f s : Option Value} {v : Value} {path : Path}

theorem merged (h : Kept ds f s) : Merged (some (.table ds)) f s := by
  cases h with
  | untouched => exact .untouched _
  | tables h => exact .tables h

theorem lookup (h : Kept ds f s) (k : String) : Merged (ds.lookup k)
    ((f.getD .nothing).entries.lookup k) ((s.getD .nothing).entries.lookup k) := by
  cases h with
  | untouched => exact .untouched _
  | tables h => exact h k

theorem change (h : Kept ds f s) (hds : entriesListless ds) (hv : displaces v path = false) :
    Kept ds (some (change v path f)) (some (change v path s)) := by
  cases path with
  | nil =>
    cases v with
    | table es =>
      have hes := merged_overlayEntries h.lookup es
      cases h with
      | untouched => exact .tables hes
      | tables h => exact .tables hes
    | _ => cases hv
  | cons step path =>
    cases step with
    | name k =>
      have hlistless : ∀ w, ds.lookup (Text.lower k) = some w → w.listless :=
        fun w hw => listless_of_lookup hds hw
      exact .tables (merged_insertEntry h.lookup ((h.lookup _).change hlistless v path))
    | index i => cases v <;> cases hv

/-- What takes the place of the table is the same as if nothing had been there. -/
theorem change_eq_of_displaces (h : Kept ds f s) (hv : displaces v path) :
    Config.change v path f = Config.change v path s := by
  cases path with
  | nil =>
    cases v with
    | table es => cases hv
    | _ => rfl
  | cons step path =>
    cases step with
    | name k => cases v <;> cases hv
    | index i =>
      have hitems : (f.getD .nothing).items = (s.getD .nothing).items := by
        cases h with
        | untouched => rfl
        | tables h => rfl
      rw [Config.change, Config.change, hitems]

end Kept

/-! ### Whole files -/

/-- A value at a path takes the place of a whole group. -/
def displacesGroup (group : String) (v : Value) : Path → Bool
  | .name name :: path => Text.lower name == group && displaces v path
  | _ => false

/-- A file puts something else in the place of a group: a value that is no table, or a list, which
it makes of the group by a subscript. -/
def replacesGroup (group : String) (file : Entries) : Bool :=
  file.any fun e => displacesGroup group e.2 (keyPath e.1)

section

variable {group : String} {fs ss ds file : Entries}

theorem lookup_edit_congr (h : fs.lookup group = ss.lookup group) (e : String × Value) :
    (edit fs e).lookup group = (edit ss e).lookup group := by
  obtain ⟨name, path, hpath⟩ := exists_keyPath_eq e.1
  rw [lookup_edit hpath, lookup_edit hpath, h]

theorem lookup_foldl_edit_congr (h : fs.lookup group = ss.lookup group) :
    (file.foldl edit fs).lookup group = (file.foldl edit ss).lookup group := by
  induction file generalizing fs ss with
  | nil => exact h
  | cons e file ih =>
    rw [List.foldl_cons, List.foldl_cons]
    exact ih (lookup_edit_congr h e)

/-- One entry keeps a table, or the same stands in its place whether or not it was there. -/
theorem kept_edit (h : Kept ds (fs.lookup group) (ss.lookup group)) (hds : entriesListless ds)
    (e : String × Value) :
    if displacesGroup group e.2 (keyPath e.1) then
      (edit fs e).lookup group = (edit ss e).lookup group
    else Kept ds ((edit fs e).lookup group) ((edit ss e).lookup group) := by
  obtain ⟨name, path, hpath⟩ := exists_keyPath_eq e.1
  rw [lookup_edit hpath, lookup_edit hpath, hpath, displacesGroup]
  by_cases hname : group = Text.lower name
  · subst hname
    rw [if_pos rfl, if_pos rfl, beq_self_eq_true, Bool.true_and]
    cases hdisplaces : displaces e.2 path with
    | false => exact h.change hds hdisplaces
    | true => exact congrArg some (h.change_eq_of_displaces hdisplaces)
  · simpa [if_neg hname, Ne.symm hname] using h

theorem kept_foldl_edit (h : Kept ds (fs.lookup group) (ss.lookup group))
    (hds : entriesListless ds) :
    if replacesGroup group file then
      (file.foldl edit fs).lookup group = (file.foldl edit ss).lookup group
    else Kept ds ((file.foldl edit fs).lookup group) ((file.foldl edit ss).lookup group) := by
  induction file generalizing fs ss with
  | nil => exact h
  | cons e file ih =>
    have hstep := kept_edit h hds e
    rw [List.foldl_cons, List.foldl_cons, replacesGroup, List.any_cons]
    cases he : displacesGroup group e.2 (keyPath e.1) with
    | false =>
      rw [he] at hstep
      exact ih hstep
    | true =>
      rw [he] at hstep
      exact lookup_foldl_edit_congr hstep

/-- A file keeps a built-in table or puts something else in its place. -/
theorem kept_overlayFile (file : Entries) {below : Entries}
    (h : below.lookup group = some (.table ds)) (hds : entriesListless ds) :
    if replacesGroup group file then
      (overlayFile [] file).lookup group = (overlayFile below file).lookup group
    else Kept ds ((overlayFile [] file).lookup group) ((overlayFile below file).lookup group) := by
  have hstart : Kept ds (([] : Entries).lookup group) (below.lookup group) := h ▸ .untouched
  rw [overlayFile_eq, overlayFile_eq]
  exact kept_foldl_edit hstart hds

end

/-! ### Leaves of a file -/

namespace Leaf

variable {l : Leaf} {file : Entries}

/-- The value that a file gives for a leaf, if it says anything. An empty table says nothing. -/
def defined? (l : Leaf) (file : Entries) : Option Value :=
  match l.given? (overlayFile [] file) with
  | some (.table []) => none
  | o => o

theorem defined?_eq_some_iff {x : Value} (hne : ∀ es, x ≠ .table es) :
    l.defined? file = some x ↔ l.given? (overlayFile [] file) = some x := by
  rw [defined?]
  split
  next hempty =>
    rw [hempty]
    exact ⟨nofun, fun h => absurd (Option.some.inj h).symm (hne [])⟩
  next => exact Iff.rfl

theorem defined?_eq_none
    (h : l.given? (overlayFile [] file) = none ∨
      l.given? (overlayFile [] file) = some (.table [])) : l.defined? file = none := by
  rcases h with h | h <;> rw [defined?, h]

end Leaf

end LabelFleet.Config
