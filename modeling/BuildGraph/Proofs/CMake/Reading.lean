import BuildGraph.Proofs.CMake.Lines
set_option autoImplicit false

/-!
# Reading directives back

A line is read as a command with arguments. The command ends at the first parenthesis; the
arguments are what blanks and semicolons separate up to the last one, empty ones left out. Among
the arguments a word of a scope opens the values of that scope. Groups of values that are written
by scope are read back as they were, as long as no value is empty, has a separator in it or is the
word of a scope.
-/

namespace BuildGraph.CMake

/-! ## Items -/

/-- A blank or a semicolon. -/
def separates (c : Char) : Bool :=
  c == ' ' || c == '\t' || c == ';'

/-- What stands between the separators of a text, without what is empty. -/
def items (cs : List Char) : List String :=
  ((cs.splitOnP separates).filter (· ≠ [])).map String.ofList

/-- A text that is not empty and has no separator in it. -/
def IsItem (s : String) : Prop :=
  s ≠ "" ∧ ∀ c ∈ s.toList, separates c = false

-- The characters are those of the text: other instances go through all characters there are.
instance (s : String) : Decidable (IsItem s) :=
  @instDecidableAnd _ _ inferInstance (List.decidableBAll _ _)

variable {s : String} {c : Char}

theorem items_append_cons (hc : separates c = true) (cs ds : List Char) :
    items (cs ++ c :: ds) = items cs ++ items ds := by
  unfold items
  rw [List.splitOnP_append_cons cs ds hc, List.filter_append, List.map_append]

theorem IsItem.items_eq (h : IsItem s) : items s.toList = [s] := by
  have hne : s.toList ≠ [] := fun hnil => h.1 (String.toList_eq_nil_iff.1 hnil)
  unfold items
  rw [List.splitOnP_eq_singleton h.2, List.filter_cons_of_pos (by simpa using hne),
    List.filter_nil, List.map_singleton, String.ofList_toList]

/-- A separator between two texts separates their items. -/
theorem items_append_mark {mark : String} (hc : separates c = true) (hmark : mark.toList = [c])
    (s t : String) : items (s ++ mark ++ t).toList = items s.toList ++ items t.toList := by
  rw [String.toList_append, String.toList_append, hmark, List.append_assoc, List.singleton_append,
    items_append_cons hc]

theorem items_append_space (s t : String) :
    items (s ++ " " ++ t).toList = items s.toList ++ items t.toList :=
  items_append_mark (by decide : separates ' ' = true) rfl s t

/-- Values with a semicolon behind each are read back. -/
theorem items_terminated {values : List String} (h : ∀ v ∈ values, IsItem v) :
    items (terminated values).toList = values := by
  induction values with
  | nil => rfl
  | cons v vs ih =>
    obtain ⟨hv, hvs⟩ := List.forall_mem_cons.1 h
    have hcons : terminated (v :: vs) = v ++ ";" ++ terminated vs := String.join_cons
    rw [hcons, items_append_mark (by decide : separates ';' = true) rfl, hv.items_eq, ih hvs,
      List.singleton_append]

theorem items_intercalate_space (ss : List String) :
    items (" ".intercalate ss).toList = ss.flatMap fun s => items s.toList := by
  induction ss with
  | nil => rfl
  | cons s ss ih =>
    cases ss with
    | nil => exact (List.append_nil _).symm
    | cons t ts =>
      rw [String.intercalate_cons_cons, items_append_space, ih]
      rfl

/-! ## Scopes -/

/-- The scope that a word opens. -/
def Scope.ofWord? : String → Option Scope
  | "PUBLIC" => some .exposed
  | "PRIVATE" => some .internal
  | "INTERFACE" => some .interface
  | _ => none

theorem Scope.ofWord?_word (scope : Scope) : Scope.ofWord? scope.word = some scope := by
  cases scope <;> rfl

/-- Arguments under the scope that was opened last before them, if there is one. -/
def byScope : Option Scope → List String → List (Option Scope × String)
  | _, [] => []
  | current, argument :: rest =>
    match Scope.ofWord? argument with
    | some scope => byScope (some scope) rest
    | none => (current, argument) :: byScope current rest

/-- A text that can be a value: it is one item and does not open a scope. -/
def IsValue (s : String) : Prop :=
  IsItem s ∧ Scope.ofWord? s = none

instance (s : String) : Decidable (IsValue s) := inferInstanceAs (Decidable (_ ∧ _))

theorem byScope_values {values : List String} (h : ∀ v ∈ values, Scope.ofWord? v = none)
    (current : Option Scope) (rest : List String) :
    byScope current (values ++ rest) = values.map (current, ·) ++ byScope current rest := by
  induction values with
  | nil => rfl
  | cons v vs ih =>
    obtain ⟨hv, hvs⟩ := List.forall_mem_cons.1 h
    rw [List.cons_append, byScope, hv, ih hvs]
    rfl

/-- The values of groups, each under its scope. -/
def Groups.scoped (gs : Groups) : List (Option Scope × String) :=
  gs.flatMap fun group => group.2.map (some group.1, ·)

theorem isItem_word (scope : Scope) : IsItem scope.word := by
  cases scope <;> decide

theorem items_groupsText {gs : Groups} (h : ∀ group ∈ gs, ∀ v ∈ group.2, IsItem v) :
    items (groupsText gs).toList = gs.flatMap fun group => group.1.word :: group.2 := by
  unfold groupsText
  rw [items_intercalate_space, List.flatMap_map, List.flatMap_def, List.flatMap_def]
  congr 1
  apply List.map_congr_left
  intro group hgroup
  rw [items_append_space, (isItem_word group.1).items_eq, items_terminated (h group hgroup)]
  rfl

/-- Groups are read back as they were written. -/
theorem byScope_items_groupsText {gs : Groups} (h : ∀ group ∈ gs, ∀ v ∈ group.2, IsValue v)
    (current : Option Scope) : byScope current (items (groupsText gs).toList) = gs.scoped := by
  rw [items_groupsText fun group hgroup v hv => (h group hgroup v hv).1]
  induction gs generalizing current with
  | nil => rfl
  | cons group gs ih =>
    obtain ⟨hgroup, hgroups⟩ := List.forall_mem_cons.1 h
    rw [List.flatMap_cons, List.cons_append, byScope, Scope.ofWord?_word]
    dsimp only
    rw [byScope_values fun v hv => (hgroup v hv).2, ih hgroups]
    rfl

/-! ## Lines -/

/-- The command of a line: what stands before its first parenthesis. -/
def commandOf (line : String) : String :=
  String.ofList (line.toList.takeWhile (· != '('))

/-- The arguments of a line: the items between its first opening and its last closing
parenthesis. -/
def argumentsOf (line : String) : List String :=
  let opened := (line.toList.dropWhile (· != '(')).tail
  items (opened.reverse.dropWhile (· != ')')).tail.reverse

section Command

variable {command : List Char} (h : '(' ∉ command) (rest : List Char)

include h

theorem bne_paren_of_mem_command : ∀ c ∈ command, (c != '(') = true := by
  intro c hc
  exact bne_iff_ne.2 fun heq => h (heq ▸ hc)

theorem takeWhile_command : (command ++ '(' :: rest).takeWhile (· != '(') = command := by
  rw [List.takeWhile_append_of_pos (bne_paren_of_mem_command h),
    List.takeWhile_cons_of_neg (by decide), List.append_nil]

theorem dropWhile_command : (command ++ '(' :: rest).dropWhile (· != '(') = '(' :: rest := by
  rw [List.dropWhile_append_of_pos (bne_paren_of_mem_command h),
    List.dropWhile_cons_of_neg (by decide)]

end Command

namespace Directive

theorem toList_text (d : Directive) :
    d.text.toList = d.command.toList ++ '(' :: (d.argumentText.toList ++ [')']) := by
  unfold text
  simp

theorem paren_not_mem_command (d : Directive) : '(' ∉ d.command.toList :=
  d.not_mem_command (by decide)

/-- The command of a directive is read from its line. -/
theorem commandOf_text (d : Directive) : commandOf d.text = d.command := by
  unfold commandOf
  rw [toList_text, takeWhile_command d.paren_not_mem_command, String.ofList_toList]

/-- The items of a directive are read from its line, whatever parentheses are among them. -/
theorem argumentsOf_text (d : Directive) : argumentsOf d.text = items d.argumentText.toList := by
  unfold argumentsOf
  rw [toList_text, dropWhile_command d.paren_not_mem_command]
  simp

end Directive

/-- The lines of the block of an active module that have a command are those of its directives that
have it. -/
theorem OneLine.filter_linesOf_block {g : Graph} {w : Workspace} {id : ModuleId} {m : Module}
    (h : OneLine g w) (hm : g.modules[id]? = some m) (hactive : m.isActive = true)
    {command : String} (hcommand : command ≠ "") :
    (Text.linesOf (block g w id)).filter (commandOf · == command) =
      ((moduleDirectives g w id m).filter (·.command == command)).map Directive.text := by
  have hlast : commandOf "" = "" := by
    decide
  have hempty : [""].filter (commandOf · == command) = [] := by
    simp [hlast, hcommand.symm]
  have htexts : ((commandOf · == command) ∘ Directive.text) = (·.command == command) := by
    funext d
    rw [Function.comp_apply, d.commandOf_text]
  rw [h.linesOf_block, List.filter_append, hempty, List.append_nil, List.filter_map, htexts,
    blockDirectives_eq hm hactive]

end BuildGraph.CMake
