/-!
# Display options

Six flags say how a term is written.  They never change the term itself.

## Main statements

- `Flag.ofName?_name`, `Flag.name_of_ofName?`: a flag is known by its name alone;
- `isOn_flip`, `flip_flip`: flipping a flag changes that flag only, and twice is as before.
-/

namespace Collapsing

/-! ## §1 Flags -/

/-- The switches of the display. -/
inductive Flag where
  /-- Write `亞(0,1)` as `ω`. -/
  | omega
  /-- Write `亞(1,0)` as `Ω`. -/
  | bigOmega
  /-- Write `亞(a,b)` as `亞_a(b)`. -/
  | subscripts
  /-- Always put subscripts in braces. -/
  | braces
  /-- Write `亞(0,b)` as `亞(b)`. -/
  | dropZero
  /-- Write TeX source. -/
  | tex
  deriving DecidableEq, Repr

namespace Flag

/-- All flags, in the order in which they are listed. -/
def all : List Flag := [omega, bigOmega, subscripts, braces, dropZero, tex]

/-- The name by which a user addresses a flag. -/
def name : Flag → String
  | omega => "show_omega_abbrev"
  | bigOmega => "show_omega_upper_abbrev"
  | subscripts => "use_subscript_form"
  | braces => "always_brace_subscript"
  | dropZero => "drop_zero_sub"
  | tex => "render_as_tex"

/-- The flag with the given name. -/
def ofName? (name : String) : Option Flag := all.find? (·.name = name)

theorem ofName?_name (flag : Flag) : ofName? flag.name = some flag := by
  cases flag <;> decide

theorem name_of_ofName? {name : String} {flag : Flag} (h : ofName? name = some flag) :
    flag.name = name := by
  simpa using List.find?_some h

end Flag

/-! ## §2 Options -/

/-- The state of all flags. -/
structure Options where
  omega : Bool := false
  bigOmega : Bool := false
  subscripts : Bool := false
  braces : Bool := false
  dropZero : Bool := false
  tex : Bool := false
  deriving DecidableEq, Repr, Inhabited

/-- A name that no flag has. -/
structure UnknownFlag where
  name : String
  deriving DecidableEq, Repr

/-- The wording of the refusal of a name. -/
def UnknownFlag.message (unknown : UnknownFlag) : String :=
  "Unknown render option: " ++ unknown.name

namespace Options

/-- All flags off: the full text of a term, which can be read back. -/
def plain : Options := {}

/-- The shortest text: constants, subscripts, and one operand where the subscript is `0`. -/
def abbreviated : Options :=
  { omega := true, bigOmega := true, subscripts := true, dropZero := true }

/-- Whether a flag is on. -/
def isOn (options : Options) : Flag → Bool
  | .omega => options.omega
  | .bigOmega => options.bigOmega
  | .subscripts => options.subscripts
  | .braces => options.braces
  | .dropZero => options.dropZero
  | .tex => options.tex

/-- The options with one flag put on or off. -/
def set (options : Options) (flag : Flag) (value : Bool) : Options :=
  match flag with
  | .omega => { options with omega := value }
  | .bigOmega => { options with bigOmega := value }
  | .subscripts => { options with subscripts := value }
  | .braces => { options with braces := value }
  | .dropZero => { options with dropZero := value }
  | .tex => { options with tex := value }

/-- The options with one flag the other way round. -/
def flip (options : Options) (flag : Flag) : Options := options.set flag (!options.isOn flag)

/-- The options with the flag of the given name the other way round. -/
def toggle (options : Options) (name : String) : Except UnknownFlag Options :=
  match Flag.ofName? name with
  | some flag => .ok (options.flip flag)
  | none => .error ⟨name⟩

/-- The flags that are on, in the order of the list of flags. -/
def flagsOn (options : Options) : List Flag := Flag.all.filter options.isOn

@[simp] theorem isOn_set (options : Options) (flag other : Flag) (value : Bool) :
    (options.set flag value).isOn other = if other = flag then value else options.isOn other := by
  cases flag <;> cases other <;> rfl

theorem isOn_flip (options : Options) (flag other : Flag) :
    (options.flip flag).isOn other =
      if other = flag then !options.isOn other else options.isOn other := by
  rw [flip, isOn_set]
  split
  · subst flag; rfl
  · rfl

/-- Options with the same flags on are the same. -/
theorem ext_isOn {o p : Options} (h : ∀ flag, o.isOn flag = p.isOn flag) : o = p := by
  cases o; cases p
  simpa only [mk.injEq] using
    ⟨h .omega, h .bigOmega, h .subscripts, h .braces, h .dropZero, h .tex⟩

@[simp] theorem flip_flip (options : Options) (flag : Flag) :
    (options.flip flag).flip flag = options :=
  ext_isOn fun other => by
    rw [isOn_flip, isOn_flip]
    split <;> simp

end Options

end Collapsing
