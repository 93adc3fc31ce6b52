import WorkoutBoard.Config.Environment
import WorkoutBoard.Proofs.Config.SocketAddress
import WorkoutBoard.Proofs.Config.Timeout

/-!
# Which environments are accepted

The variables are read in order. As long as each of those before it is satisfied, a variable gives
its setting or is the first offence (`Concludes.of_reading`), so that an environment describes
settings or has one first offence, which is what is told (`settings_or_first_fault`). Standard
values are no different from values that are written (`ofEnvironment_of_written`).
-/

namespace WorkoutBoard.Config

/-! ## How each setting is written -/

inductive SpellsOrigins : String → Http.OriginPolicy → Prop where
  | any : SpellsOrigins "*" .any
  | exact {origin : String} (other : origin ≠ "*")
      (header : ∀ character ∈ origin.toList,
        character = '\t' ∨ 0x20 ≤ character.toNat ∧ character.toNat ≠ 0x7F) :
      SpellsOrigins origin (.exact origin)

def SpellsListenAddress (value : String) (address : SocketAddress) : Prop :=
  SocketAddress.Spells value.toList address

def SpellsTimeout (value : String) (timeout : Duration) : Prop :=
  Duration.SpellsDuration value.toList timeout ∧ 0 < timeout.toNanos

inductive SpellsLogFormat : String → LogFormat → Prop where
  | pretty : SpellsLogFormat "pretty" .pretty
  | json : SpellsLogFormat "json" .json

theorem isHeaderCharacter_iff {character : Char} :
    isHeaderCharacter character = true ↔
      character = '\t' ∨ 0x20 ≤ character.toNat ∧ character.toNat ≠ 0x7F := by
  rw [isHeaderCharacter, Bool.or_eq_true, Bool.and_eq_true, beq_iff_eq, decide_eq_true_eq,
    bne_iff_ne]

theorem origins?_eq_some_iff {value : String} {origins : Http.OriginPolicy} :
    origins? value = some origins ↔ SpellsOrigins value origins := by
  rw [origins?]
  constructor
  · intro read
    split at read
    next same =>
      cases read
      rw [same]
      exact .any
    next other =>
      split at read
      next header =>
        cases read
        exact .exact other fun character inside =>
          isHeaderCharacter_iff.mp (List.all_eq_true.mp header character inside)
      next => cases read
  · intro spells
    cases spells with
    | any => rfl
    | exact other header =>
        rw [if_neg other, if_pos]
        exact List.all_eq_true.mpr fun character inside =>
          isHeaderCharacter_iff.mpr (header character inside)

theorem logFormat?_eq_some_iff {value : String} {format : LogFormat} :
    logFormat? value = some format ↔ SpellsLogFormat value format := by
  rw [logFormat?]
  constructor
  · intro read
    split at read
    next same =>
      cases read
      rw [same]
      exact .pretty
    next =>
      split at read
      next same =>
        cases read
        rw [same]
        exact .json
      next => cases read
  · intro spells
    cases spells with
    | pretty => rfl
    | json => rfl

theorem SpellsOrigins.eq_any_iff {value : String} {origins : Http.OriginPolicy}
    (spells : SpellsOrigins value origins) : origins = .any ↔ value = "*" := by
  cases spells with
  | any => exact ⟨fun _ => rfl, fun _ => rfl⟩
  | exact other header => exact ⟨nofun, fun same => absurd same other⟩

/-! ## The variables -/

inductive Parameter where
  | tableName
  | origins
  | listenAddress
  | requestTimeout
  | logFormat

namespace Parameter

def name : Parameter → String
  | tableName => "CACHE_TABLE_NAME"
  | origins => "CORS_ORIGIN"
  | listenAddress => "LISTEN_ADDR"
  | requestTimeout => "REQUEST_TIMEOUT"
  | logFormat => "LOG_FORMAT"

def place : Parameter → Nat
  | tableName => 0
  | origins => 1
  | listenAddress => 2
  | requestTimeout => 3
  | logFormat => 4

/-- The complaint about an unusable value. An unusable name of a table counts as missing. -/
def reason? : Parameter → Option Reason
  | tableName => none
  | origins => some .header
  | listenAddress => some .address
  | requestTimeout => some .duration
  | logFormat => some .logFormat

def IsUsable (value : String) : Parameter → Prop
  | tableName => value ≠ ""
  | origins => ∃ origins, SpellsOrigins value origins
  | listenAddress => ∃ address, SpellsListenAddress value address
  | requestTimeout => ∃ timeout, SpellsTimeout value timeout
  | logFormat => ∃ format, SpellsLogFormat value format

/-- A variable holds a usable value, or is not set and has a standard value. -/
def IsSatisfied (environment : Environment) (parameter : Parameter) : Prop :=
  match environment parameter.name with
  | none => parameter ≠ tableName
  | some value => parameter.IsUsable value

def SatisfiedBelow (environment : Environment) (count : Nat) : Prop :=
  ∀ parameter : Parameter, parameter.place < count → parameter.IsSatisfied environment

/-- The first variable, in the order of reading, that is not satisfied. -/
structure IsFirstOffence (environment : Environment) (parameter : Parameter) : Prop where
  offends : ¬parameter.IsSatisfied environment
  earlier : SatisfiedBelow environment parameter.place

inductive Blames (environment : Environment) : Parameter → Fault → Prop where
  | missing : Blames environment tableName (.missing tableName.name)
  | invalid {parameter : Parameter} {value : String} {reason : Reason}
      (held : environment parameter.name = some value)
      (complaint : parameter.reason? = some reason) :
      Blames environment parameter (.invalid parameter.name value reason)

def AgreeThrough (parameter : Parameter) (environment other : Environment) : Prop :=
  ∀ read : Parameter, read.place ≤ parameter.place → other read.name = environment read.name

variable {environment : Environment} {parameter : Parameter}

theorem place_inj {other : Parameter} (same : parameter.place = other.place) :
    parameter = other := by
  cases parameter <;> cases other <;> first | rfl | cases same

theorem place_lt (parameter : Parameter) : parameter.place < 5 := by
  cases parameter <;> decide

theorem satisfiedBelow_zero : SatisfiedBelow environment 0 :=
  fun other within => absurd within (Nat.not_lt_zero other.place)

theorem satisfiedBelow_succ (below : SatisfiedBelow environment parameter.place)
    (satisfied : parameter.IsSatisfied environment) :
    SatisfiedBelow environment (parameter.place + 1) := by
  intro other within
  rcases Nat.lt_succ_iff_lt_or_eq.mp within with before | same
  · exact below other before
  · rwa [place_inj same]

theorem isSatisfied_congr {other : Environment}
    (same : other parameter.name = environment parameter.name) :
    parameter.IsSatisfied other ↔ parameter.IsSatisfied environment := by
  rw [IsSatisfied, IsSatisfied, same]

theorem IsFirstOffence.of_agree {other : Environment} (first : IsFirstOffence environment parameter)
    (agree : AgreeThrough parameter environment other) : IsFirstOffence other parameter where
  offends := mt (isSatisfied_congr (agree parameter Nat.le.refl)).mp first.offends
  earlier := fun read before =>
    (isSatisfied_congr (agree read (Nat.le_of_lt before))).mpr (first.earlier read before)

theorem Blames.of_agree {other : Environment} {fault : Fault}
    (blames : Blames environment parameter fault)
    (agree : AgreeThrough parameter environment other) : Blames other parameter fault := by
  cases blames with
  | missing => exact .missing
  | invalid held complaint => exact .invalid ((agree parameter Nat.le.refl).trans held) complaint

theorem IsFirstOffence.unique {other : Parameter} (first : IsFirstOffence environment parameter)
    (otherFirst : IsFirstOffence environment other) : parameter = other := by
  rcases Nat.lt_trichotomy parameter.place other.place with before | same | after
  · exact absurd (otherFirst.earlier parameter before) first.offends
  · exact place_inj same
  · exact absurd (first.earlier other after) otherFirst.offends

theorem Blames.unique {fault other : Fault} (blames : Blames environment parameter fault)
    (otherBlames : Blames environment parameter other) : fault = other := by
  cases blames with
  | missing =>
      cases otherBlames with
      | missing => rfl
      | invalid _ complaint => cases complaint
  | invalid held complaint =>
      cases otherBlames with
      | missing => cases complaint
      | invalid otherHeld otherComplaint =>
          rw [Option.some.inj (held.symm.trans otherHeld),
            Option.some.inj (complaint.symm.trans otherComplaint)]

end Parameter

/-! ## What the variables give -/

open Parameter (AgreeThrough Blames IsFirstOffence SatisfiedBelow)

def Gives {α : Type} (environment : Environment) (parameter : Parameter) (standard : α)
    (Spells : String → α → Prop) (result : α) : Prop :=
  match environment parameter.name with
  | none => result = standard
  | some value => Spells value result

structure Describes (environment : Environment) (settings : Settings) : Prop where
  tableName : environment Parameter.tableName.name = some settings.tableName
  named : settings.tableName ≠ ""
  origins : Gives environment .origins .any SpellsOrigins settings.origins
  listenAddress : Gives environment .listenAddress standardAddress SpellsListenAddress
    settings.listenAddress
  requestTimeout : Gives environment .requestTimeout (.ofSeconds 10) SpellsTimeout
    settings.requestTimeout
  logFormat : Gives environment .logFormat .pretty SpellsLogFormat settings.logFormat

structure Reads {α : Type} (parameter : Parameter) (reason : Reason) (read : String → Option α)
    (Spells : String → α → Prop) : Prop where
  spelled : ∀ value result, read value = some result ↔ Spells value result
  usable : ∀ value, parameter.IsUsable value ↔ ∃ result, Spells value result
  complaint : parameter.reason? = some reason

theorem Reads.optional {α : Type} {parameter : Parameter} {reason : Reason}
    {read : String → Option α} {Spells : String → α → Prop}
    (reads : Reads parameter reason read Spells) : parameter ≠ .tableName := by
  rintro rfl
  cases reads.complaint

theorem reads_origins : Reads .origins .header origins? SpellsOrigins :=
  ⟨fun _ _ => origins?_eq_some_iff, fun _ => .rfl, rfl⟩

theorem reads_listenAddress :
    Reads .listenAddress .address SocketAddress.ofText? SpellsListenAddress :=
  ⟨fun _ _ => SocketAddress.ofText?_eq_some_iff, fun _ => .rfl, rfl⟩

theorem reads_requestTimeout : Reads .requestTimeout .duration Duration.timeout? SpellsTimeout :=
  ⟨fun _ _ => Duration.timeout?_eq_some_iff, fun _ => .rfl, rfl⟩

theorem reads_logFormat : Reads .logFormat .logFormat logFormat? SpellsLogFormat :=
  ⟨fun _ _ => logFormat?_eq_some_iff, fun _ => .rfl, rfl⟩

def Reading {α : Type} (environment : Environment) (parameter : Parameter) (Holds : α → Prop) :
    Except Fault α → Prop
  | .ok result => parameter.IsSatisfied environment ∧ Holds result
  | .error fault => ¬parameter.IsSatisfied environment ∧ Blames environment parameter fault

def Concludes (environment : Environment) : Except Fault Settings → Prop
  | .ok settings => SatisfiedBelow environment 5 ∧ Describes environment settings
  | .error fault => ∃ parameter, IsFirstOffence environment parameter ∧
      Blames environment parameter fault

section

variable {environment : Environment} {parameter : Parameter}

theorem setting_reading {α : Type} {reason : Reason} {read : String → Option α}
    {Spells : String → α → Prop} (reads : Reads parameter reason read Spells) (standard : α) :
    Reading environment parameter (Gives environment parameter standard Spells)
      (setting environment parameter.name standard reason read) := by
  cases held : environment parameter.name with
  | none =>
      rw [setting, held]
      constructor
      · rw [Parameter.IsSatisfied, held]
        exact reads.optional
      · rw [Gives, held]
  | some value =>
      cases found : read value with
      | none =>
          simp only [setting, held, found]
          refine ⟨?_, .invalid held reads.complaint⟩
          rw [Parameter.IsSatisfied, held]
          intro usable
          rcases (reads.usable value).mp usable with ⟨result, spells⟩
          rw [(reads.spelled value result).mpr spells] at found
          cases found
      | some result =>
          have spells := (reads.spelled value result).mp found
          simp only [setting, held, found]
          constructor
          · rw [Parameter.IsSatisfied, held]
            exact (reads.usable value).mpr ⟨result, spells⟩
          · rw [Gives, held]
            exact spells

theorem setting_of_gives {α : Type} {standard result : α} {reason : Reason}
    {read : String → Option α} {Spells : String → α → Prop}
    (reads : Reads parameter reason read Spells)
    (gives : Gives environment parameter standard Spells result) :
    setting environment parameter.name standard reason read = .ok result := by
  cases held : environment parameter.name with
  | none =>
      rw [Gives, held] at gives
      rw [setting, held, gives]
  | some value =>
      rw [Gives, held] at gives
      simp only [setting, held, (reads.spelled value result).mpr gives]

theorem tableName_reading :
    Reading environment .tableName
      (fun name => environment Parameter.tableName.name = some name ∧ name ≠ "")
      (tableName environment) := by
  rw [tableName]
  cases held : environment "CACHE_TABLE_NAME" with
  | none =>
      refine ⟨?_, .missing⟩
      rw [Parameter.IsSatisfied, Parameter.name, held]
      exact fun other => other rfl
  | some name =>
      by_cases empty : name = ""
      · rw [empty]
        refine ⟨?_, .missing⟩
        rw [Parameter.IsSatisfied, Parameter.name, held, empty]
        exact fun visible => visible rfl
      · have visible : ¬name.isEmpty = true := mt String.isEmpty_iff.mp empty
        dsimp only
        rw [if_neg visible]
        refine ⟨?_, held, empty⟩
        rw [Parameter.IsSatisfied, Parameter.name, held]
        exact empty

theorem Concludes.of_reading {α : Type} {Holds : α → Prop} {first : Except Fault α}
    {continuation : α → Except Fault Settings}
    (earlier : SatisfiedBelow environment parameter.place)
    (reading : Reading environment parameter Holds first)
    (later : ∀ result, SatisfiedBelow environment (parameter.place + 1) → Holds result →
      Concludes environment (continuation result)) :
    Concludes environment (first >>= continuation) := by
  cases first with
  | ok result => exact later result (Parameter.satisfiedBelow_succ earlier reading.1) reading.2
  | error fault => exact ⟨parameter, ⟨reading.1, earlier⟩, reading.2⟩

theorem ofEnvironment_concludes (environment : Environment) :
    Concludes environment (Settings.ofEnvironment environment) := by
  apply Concludes.of_reading Parameter.satisfiedBelow_zero tableName_reading
  rintro name named ⟨held, nonempty⟩
  apply Concludes.of_reading named (setting_reading reads_origins .any)
  intro origins known gaveOrigins
  apply Concludes.of_reading known (setting_reading reads_listenAddress standardAddress)
  intro address placed gaveAddress
  apply Concludes.of_reading placed (setting_reading reads_requestTimeout (.ofSeconds 10))
  intro timeout timed gaveTimeout
  apply Concludes.of_reading timed (setting_reading reads_logFormat .pretty)
  intro format all gaveFormat
  exact ⟨all, held, nonempty, gaveOrigins, gaveAddress, gaveTimeout, gaveFormat⟩

theorem ofEnvironment_of_describes {settings : Settings}
    (describes : Describes environment settings) :
    Settings.ofEnvironment environment = .ok settings := by
  have table : tableName environment = .ok settings.tableName := by
    have visible : ¬settings.tableName.isEmpty = true := mt String.isEmpty_iff.mp describes.named
    have held : environment "CACHE_TABLE_NAME" = some settings.tableName := describes.tableName
    simp only [tableName, held, if_neg visible]
  have origins := setting_of_gives reads_origins describes.origins
  have address := setting_of_gives reads_listenAddress describes.listenAddress
  have timeout := setting_of_gives reads_requestTimeout describes.requestTimeout
  have format := setting_of_gives reads_logFormat describes.logFormat
  simp only [Parameter.name] at origins address timeout format
  rw [Settings.ofEnvironment, table, origins, address, timeout, format]
  rfl

theorem ofEnvironment_eq_ok_iff {settings : Settings} :
    Settings.ofEnvironment environment = .ok settings ↔ Describes environment settings := by
  constructor
  · intro read
    have concludes := ofEnvironment_concludes environment
    rw [read] at concludes
    exact concludes.2
  · exact ofEnvironment_of_describes

theorem exists_settings_iff :
    (∃ settings, Settings.ofEnvironment environment = .ok settings) ↔
      ∀ parameter : Parameter, parameter.IsSatisfied environment := by
  have concludes := ofEnvironment_concludes environment
  constructor
  · rintro ⟨settings, read⟩ parameter
    rw [read] at concludes
    exact concludes.1 parameter parameter.place_lt
  · intro satisfied
    cases read : Settings.ofEnvironment environment with
    | ok settings => exact ⟨settings, rfl⟩
    | error fault =>
        rw [read] at concludes
        rcases concludes with ⟨parameter, first, -⟩
        exact absurd (satisfied parameter) first.offends

theorem ofEnvironment_eq_error_iff {fault : Fault} :
    Settings.ofEnvironment environment = .error fault ↔
      ∃ parameter, IsFirstOffence environment parameter ∧ Blames environment parameter fault := by
  have concludes := ofEnvironment_concludes environment
  constructor
  · intro read
    rw [read] at concludes
    exact concludes
  · rintro ⟨parameter, first, blames⟩
    cases read : Settings.ofEnvironment environment with
    | ok settings =>
        exact absurd (exists_settings_iff.mp ⟨settings, read⟩ parameter) first.offends
    | error other =>
        rw [read] at concludes
        rcases concludes with ⟨blamed, blamedFirst, blamedFault⟩
        rw [blamedFirst.unique first] at blamedFault
        rw [blamedFault.unique blames]

theorem Describes.origins_eq_any_iff {settings : Settings}
    (describes : Describes environment settings) :
    settings.origins = .any ↔
      environment "CORS_ORIGIN" = none ∨ environment "CORS_ORIGIN" = some "*" := by
  have gives := describes.origins
  rw [Gives, Parameter.name] at gives
  cases held : environment "CORS_ORIGIN" with
  | none =>
      rw [held] at gives
      exact ⟨fun _ => .inl rfl, fun _ => gives⟩
  | some value =>
      rw [held] at gives
      rw [gives.eq_any_iff, Option.some.injEq]
      exact ⟨.inr, fun cases => cases.resolve_left nofun⟩

theorem Describes.requestTimeout_pos {settings : Settings}
    (describes : Describes environment settings) : 0 < settings.requestTimeout.toNanos := by
  have gives := describes.requestTimeout
  rw [Gives] at gives
  cases held : environment Parameter.requestTimeout.name with
  | none =>
      rw [held] at gives
      rw [gives]
      decide
  | some value =>
      rw [held] at gives
      exact gives.2

end

/-- An environment is accepted if and only if each variable is satisfied, and it determines the
settings. Otherwise the first variable that is not satisfied is blamed, with its value, whatever the
later ones hold. -/
theorem settings_or_first_fault (environment : Environment) :
    ((∃ settings, Settings.ofEnvironment environment = .ok settings) ↔
        ∀ parameter : Parameter, parameter.IsSatisfied environment) ∧
      (∀ settings, Settings.ofEnvironment environment = .ok settings ↔
        Describes environment settings) ∧
      (∀ settings, Settings.ofEnvironment environment = .ok settings →
        (settings.origins = .any ↔
          environment "CORS_ORIGIN" = none ∨ environment "CORS_ORIGIN" = some "*") ∧
        0 < settings.requestTimeout.toNanos) ∧
      (∀ fault, Settings.ofEnvironment environment = .error fault ↔
        ∃ parameter, IsFirstOffence environment parameter ∧
          Blames environment parameter fault) ∧
      ∀ parameter fault other, IsFirstOffence environment parameter →
        Blames environment parameter fault → AgreeThrough parameter environment other →
          Settings.ofEnvironment other = .error fault := by
  refine ⟨exists_settings_iff, fun settings => ofEnvironment_eq_ok_iff, ?_,
    fun fault => ofEnvironment_eq_error_iff, ?_⟩
  · intro settings read
    have describes := ofEnvironment_eq_ok_iff.mp read
    exact ⟨describes.origins_eq_any_iff, describes.requestTimeout_pos⟩
  · intro parameter fault other first blames agree
    exact ofEnvironment_eq_error_iff.mpr
      ⟨parameter, first.of_agree agree, blames.of_agree agree⟩

theorem settings_or_first_fault_of_two :
    (∃ settings, Settings.ofEnvironment
        (List.lookup · [("CACHE_TABLE_NAME", "boards"), ("LISTEN_ADDR", "[::1]:80"),
          ("REQUEST_TIMEOUT", "1m30s")]) = .ok settings ∧
      settings.origins = .any ∧ 0 < settings.requestTimeout.toNanos) ∧
    ∀ other, AgreeThrough .listenAddress
        (List.lookup · [("CACHE_TABLE_NAME", "boards"), ("LISTEN_ADDR", "nowhere")]) other →
      Settings.ofEnvironment other = .error (.invalid "LISTEN_ADDR" "nowhere" .address) := by
  constructor
  · rcases settings_or_first_fault (List.lookup · [("CACHE_TABLE_NAME", "boards"),
      ("LISTEN_ADDR", "[::1]:80"), ("REQUEST_TIMEOUT", "1m30s")]) with
      ⟨-, accepted, known, -⟩
    have read := (accepted ⟨"boards", .any, .version6 [0, 0, 0, 0, 0, 0, 0, 1] 0 80, ⟨90, 0⟩,
      .pretty⟩).mpr
      { tableName := rfl
        named := by decide
        origins := rfl
        listenAddress := SocketAddress.ofText?_eq_some_iff.mp (by decide +kernel)
        requestTimeout := Duration.timeout?_eq_some_iff.mp (by decide +kernel)
        logFormat := rfl }
    rcases known _ read with ⟨origins, positive⟩
    exact ⟨_, read, origins.mpr (.inl rfl), positive⟩
  · intro other agree
    have first : IsFirstOffence (List.lookup · [("CACHE_TABLE_NAME", "boards"),
        ("LISTEN_ADDR", "nowhere")]) .listenAddress := by
      constructor
      · rintro ⟨address, spells⟩
        have none : SocketAddress.ofText? "nowhere" = none := by decide +kernel
        rw [SocketAddress.ofText?_eq_some_iff.mpr spells] at none
        cases none
      · intro earlier before
        cases earlier with
        | tableName => exact (by decide : "boards" ≠ "")
        | origins => exact (nofun : Parameter.origins ≠ .tableName)
        | listenAddress => exact absurd before (by decide)
        | requestTimeout => exact absurd before (by decide)
        | logFormat => exact absurd before (by decide)
    exact (settings_or_first_fault _).2.2.2.2 _ _ other first (.invalid rfl rfl) agree

/-! ## Standard values -/

namespace Parameter

def standard? : Parameter → Option String
  | tableName => none
  | origins => some "*"
  | listenAddress => some "0.0.0.0:8080"
  | requestTimeout => some "10s"
  | logFormat => some "pretty"

end Parameter

section

variable {environment written : Environment} {parameter : Parameter}

theorem setting_of_written {α : Type} {standard : α} {reason : Reason} {read : String → Option α}
    {value : String} (spelled : read value = some standard)
    (same : written parameter.name = (environment parameter.name).or (some value)) :
    setting written parameter.name standard reason read =
      setting environment parameter.name standard reason read := by
  cases held : environment parameter.name with
  | none =>
      rw [held, Option.none_or] at same
      simp only [setting, held, same, spelled]
  | some value =>
      rw [held, Option.some_or] at same
      simp only [setting, held, same]

/-- Not to set a variable is the same as to set it to its standard value. -/
theorem ofEnvironment_of_written
    (same : ∀ parameter : Parameter,
      written parameter.name = (environment parameter.name).or parameter.standard?) :
    Settings.ofEnvironment written = Settings.ofEnvironment environment := by
  have table : tableName written = tableName environment := by
    have held := same .tableName
    rw [Parameter.standard?, Option.or_none, Parameter.name] at held
    simp only [tableName, held]
  have origins : setting written "CORS_ORIGIN" .any .header origins? =
      setting environment "CORS_ORIGIN" .any .header origins? :=
    setting_of_written (if_pos rfl) (same .origins)
  have address : setting written "LISTEN_ADDR" standardAddress .address SocketAddress.ofText? =
      setting environment "LISTEN_ADDR" standardAddress .address SocketAddress.ofText? :=
    setting_of_written (by decide +kernel) (same .listenAddress)
  have timeout :
      setting written "REQUEST_TIMEOUT" (.ofSeconds 10) .duration Duration.timeout? =
        setting environment "REQUEST_TIMEOUT" (.ofSeconds 10) .duration Duration.timeout? :=
    setting_of_written (by decide +kernel) (same .requestTimeout)
  have format : setting written "LOG_FORMAT" .pretty .logFormat logFormat? =
      setting environment "LOG_FORMAT" .pretty .logFormat logFormat? :=
    setting_of_written (if_pos rfl) (same .logFormat)
  rw [Settings.ofEnvironment, Settings.ofEnvironment, table, origins, address, timeout, format]

end

end WorkoutBoard.Config
