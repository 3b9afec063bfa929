import DriveLog.CommandLine.Arguments

/-! Reading arguments whatever the verbosity. No step of the reading looks at how much log
output has been asked for so far: with another verbosity it goes the same way and ends with
the same settings, but for their verbosity. -/

namespace DriveLog.CommandLine

namespace Progress

def withVerbosity (p : Progress) (verbosity : Nat) : Progress := { p with verbosity }

/-- The step reads the same whatever the verbosity is so far. -/
def Blind (step : Progress → Reading Progress) : Prop :=
  ∀ p verbosity, ∃ verbosity',
    step (p.withVerbosity verbosity) = (step p).map fun q => q.withVerbosity verbosity'

variable {step next : Progress → Reading Progress}

theorem Blind.bind (hstep : Blind step) (hnext : Blind next) :
    Blind fun p => step p >>= next := by
  intro p verbosity
  obtain ⟨verbosity', hfirst⟩ := hstep p verbosity
  cases hp : step p with
  | error stop =>
    refine ⟨verbosity, ?_⟩
    show step (p.withVerbosity verbosity) >>= next = (step p >>= next).map _
    rw [hfirst, hp]
    rfl
  | ok q =>
    obtain ⟨verbosity'', hthen⟩ := hnext q verbosity'
    refine ⟨verbosity'', ?_⟩
    show step (p.withVerbosity verbosity) >>= next = (step p >>= next).map _
    rw [hfirst, hp]
    exact hthen

theorem blind_error (stop : Stop) : Blind fun _ => .error stop :=
  fun _ verbosity => ⟨verbosity, rfl⟩

/-- A change of anything else than the verbosity. -/
theorem blind_ok (change : Progress → Progress)
    (hchange : ∀ p verbosity,
      change (p.withVerbosity verbosity) = (change p).withVerbosity verbosity) :
    Blind fun p => .ok (change p) :=
  fun p verbosity => ⟨verbosity, congrArg Except.ok (hchange p verbosity)⟩

/-- A choice by anything else than the verbosity. -/
theorem Blind.ite (decides : Progress → Bool)
    (hdecides : ∀ p verbosity, decides (p.withVerbosity verbosity) = decides p)
    (hstep : Blind step) (hnext : Blind next) :
    Blind fun p => if decides p then step p else next p := by
  intro p verbosity
  simp only [hdecides]
  cases decides p with
  | true => exact hstep p verbosity
  | false => exact hnext p verbosity

theorem blind_store (place : Place) (value : String) : Blind fun p => p.store place value := by
  cases place with
  | page =>
    refine .ite (fun p => p.page.isSome) (fun _ _ => rfl) (blind_error .argumentConflict) ?_
    cases readPage value with
    | error fault => exact blind_error .valueValidation
    | ok page => exact blind_ok _ fun _ _ => rfl
  | namespaceId =>
    refine .ite (fun p => p.namespaceId.isSome) (fun _ _ => rfl) (blind_error .argumentConflict) ?_
    cases readNamespace value with
    | error fault => exact blind_error .valueValidation
    | ok id => exact blind_ok _ fun _ _ => rfl
  | lastErrorEntry =>
    refine .ite (fun p => p.lastErrorEntry.isSome) (fun _ _ => rfl)
      (blind_error .argumentConflict) ?_
    cases readEntryNumber? value with
    | none => exact blind_error .valueValidation
    | some entry => exact blind_ok _ fun _ _ => rfl
  | capture =>
    unfold store
    by_cases hempty : value = ""
    · simp only [if_pos hempty]
      exact blind_error .invalidValue
    · simp only [if_neg hempty]
      exact blind_ok _ fun _ _ => rfl

theorem settle_of_none {p : Progress} (h : p.pending = none) : p.settle = .ok p := by
  simp only [settle, h]

theorem settle_of_missing {p : Progress} {place : Place} (h : p.pending = some ⟨place, none⟩) :
    p.settle = .error .invalidValue := by
  simp only [settle, h]

theorem settle_of_value {p : Progress} {place : Place} {value : String}
    (h : p.pending = some ⟨place, some value⟩) :
    p.settle = { p with pending := none }.store place value := by
  simp only [settle, h]

theorem blind_settle : Blind settle := by
  intro p verbosity
  have hkept : (p.withVerbosity verbosity).pending = p.pending := rfl
  match hp : p.pending with
  | none =>
    refine ⟨verbosity, ?_⟩
    rw [settle_of_none (hkept.trans hp), settle_of_none hp]
    rfl
  | some ⟨place, none⟩ =>
    refine ⟨verbosity, ?_⟩
    rw [settle_of_missing (hkept.trans hp), settle_of_missing hp]
    rfl
  | some ⟨place, some value⟩ =>
    rw [settle_of_value (hkept.trans hp), settle_of_value hp]
    exact blind_store place value { p with pending := none } verbosity

theorem blind_option (place : Place) (attached : Option String) :
    Blind fun p => p.option place attached := by
  refine blind_settle.bind ?_
  cases attached with
  | none => exact blind_ok _ fun _ _ => rfl
  | some value => exact blind_store place value

theorem blind_setHex : Blind setHex :=
  blind_settle.bind (.ite (fun p => p.asHex) (fun _ _ => rfl) (blind_error .argumentConflict)
    (blind_ok _ fun _ _ => rfl))

theorem blind_setNamespaceSmart : Blind setNamespaceSmart :=
  blind_settle.bind (.ite (fun p => p.namespaceSmart) (fun _ _ => rfl)
    (blind_error .argumentConflict) (blind_ok _ fun _ _ => rfl))

theorem blind_increaseVerbosity : Blind increaseVerbosity :=
  blind_settle.bind fun _ _ => ⟨_, rfl⟩

theorem blind_stop (why : Stop) : Blind fun p => p.stop why :=
  blind_settle.bind (blind_error why)

theorem Blind.flag (hset : Blind step) (attached : Option String) :
    Blind fun p => p.flag attached step := by
  cases attached with
  | none => exact hset
  | some value => exact blind_error .tooManyValues

theorem blind_longOption (name : String) (attached : Option String) :
    Blind fun p => p.longOption name attached := by
  unfold longOption
  split
  · exact blind_option .page attached
  · exact blind_option .namespaceId attached
  · exact blind_option .lastErrorEntry attached
  · exact blind_setHex.flag attached
  · exact blind_setNamespaceSmart.flag attached
  · exact (blind_stop .help).flag attached
  · exact (blind_stop .version).flag attached
  · exact blind_error .unknownArgument

theorem blind_shortOptions (cs : List Char) : Blind fun p => p.shortOptions cs := by
  induction cs with
  | nil => exact blind_ok _ fun _ _ => rfl
  | cons c cs ih =>
    unfold shortOptions
    split
    case h_1 heq => cases heq
    case h_2 heq =>
      cases heq
      exact blind_setHex.bind ih
    case h_3 heq =>
      cases heq
      exact blind_increaseVerbosity.bind ih
    case h_4 => exact blind_stop .help
    case h_5 => exact blind_stop .version
    case h_6 rest _ => exact blind_option .page (attachedValue rest)
    case h_7 rest _ => exact blind_option .namespaceId (attachedValue rest)
    case h_8 => exact blind_error .unknownArgument

theorem blind_operand (word : String) : Blind fun p => p.operand word := by
  unfold operand
  refine .ite (fun p => p.captureTaken) (fun _ _ => rfl) (blind_error .unknownArgument) ?_
  exact blind_settle.bind (blind_ok _ fun _ _ => rfl)

theorem blind_plainWord (word : String) : Blind fun p => p.plainWord word := by
  intro p verbosity
  have hkept : (p.withVerbosity verbosity).pending = p.pending := rfl
  simp only [plainWord, hkept]
  split
  · exact ⟨verbosity, rfl⟩
  · exact blind_operand word p verbosity

theorem blind_word (word : String) : Blind fun p => p.word word := by
  refine .ite (fun p => p.optionsEnded) (fun _ _ => rfl) (blind_operand word) ?_
  split
  · exact blind_ok _ fun _ _ => rfl
  · exact blind_longOption _ _
  · exact blind_shortOptions _
  · exact blind_plainWord word

theorem blind_foldlM (args : List String) : Blind fun p => args.foldlM word p := by
  induction args with
  | nil => exact blind_ok _ fun _ _ => rfl
  | cons arg args ih =>
    simp only [List.foldlM_cons]
    exact (blind_word arg).bind ih

theorem finish_withVerbosity (p : Progress) (verbosity : Nat) :
    ∃ verbosity', (p.withVerbosity verbosity).finish =
      p.finish.map fun settings => { settings with verbosity := verbosity' } := by
  obtain ⟨verbosity', hsettle⟩ := blind_settle p verbosity
  refine ⟨verbosity', ?_⟩
  simp only [finish, hsettle]
  cases p.settle with
  | error stop => rfl
  | ok q =>
    obtain ⟨page, namespaceId, asHex, namespaceSmart, lastErrorEntry, _, capture, _, _, _⟩ := q
    cases page with
    | none => rfl
    | some page =>
      cases capture with
      | none => rfl
      | some capture => rfl

theorem foldlM_word_verbose (n : Nat) (verbosity : Nat) :
    ∃ verbosity', (List.replicate n "-v").foldlM word (withVerbosity {} verbosity) =
      .ok (withVerbosity {} verbosity') := by
  induction n generalizing verbosity with
  | zero => exact ⟨verbosity, rfl⟩
  | succ n ih =>
    have hword : word (withVerbosity {} verbosity) "-v" =
        .ok (withVerbosity {} (min 255 (verbosity + 1))) := rfl
    obtain ⟨verbosity', hrest⟩ := ih (min 255 (verbosity + 1))
    refine ⟨verbosity', ?_⟩
    rw [List.replicate_succ, List.foldlM_cons, hword]
    exact hrest

end Progress

/-- Asking for more log output in front changes nothing but the verbosity. -/
theorem readArguments_verbose (n : Nat) (args : List String) :
    ∃ verbosity, readArguments (List.replicate n "-v" ++ args) =
      (readArguments args).map fun settings => { settings with verbosity } := by
  obtain ⟨verbosity, hfront⟩ := Progress.foldlM_word_verbose n 0
  obtain ⟨verbosity', hrest⟩ := Progress.blind_foldlM args {} verbosity
  have hread : readArguments (List.replicate n "-v" ++ args) =
      args.foldlM Progress.word (Progress.withVerbosity {} verbosity) >>= Progress.finish := by
    rw [readArguments, List.foldlM_append]
    show (List.replicate n "-v").foldlM Progress.word (Progress.withVerbosity {} 0) >>= _ >>= _ = _
    rw [hfront]
    rfl
  dsimp only at hrest
  rw [hread, hrest, readArguments]
  cases args.foldlM Progress.word {} with
  | error stop => exact ⟨verbosity, rfl⟩
  | ok p => exact p.finish_withVerbosity verbosity'

end DriveLog.CommandLine
