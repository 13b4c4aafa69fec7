import ModuleWiring.Manifest.Error
import ModuleWiring.Manifest.Parameters
import ModuleWiring.VersionRange.Parser

/-!
# Attributes and directives with a meaning

The names of the attributes and directives that descriptions read, and the
values that the directives may take.
-/

namespace ModuleWiring

namespace Key

def version : String :=
  "version"

/-- The older name of the version attribute. -/
def specificationVersion : String :=
  "specification-version"

def bundleSymbolicName : String :=
  "bundle-symbolic-name"

def bundleVersion : String :=
  "bundle-version"

def uses : String :=
  "uses"

/-- The directive that lists the attributes an importer has to name. -/
def mandatory : String :=
  "mandatory"

/-- The directive that tells whether a requirement has to be met. -/
def resolution : String :=
  "resolution"

/-- The directive that tells whether a required bundle is passed on. -/
def visibility : String :=
  "visibility"

def singleton : String :=
  "singleton"

/-- The directive that tells when a host accepts fragments. -/
def fragmentAttachment : String :=
  "fragment-attachment"

/-- The directive that makes a fragment an extension of the framework. -/
def extensionKind : String :=
  "extension"

/-- The attributes that are matched by rules of their own, or not at all. -/
def unmatched : List String :=
  [version, specificationVersion, bundleSymbolicName, bundleVersion, mandatory]

end Key

/-- Whether a requirement must be met for its module to resolve. -/
inductive Resolution where
  | mandatory
  | optional
  deriving DecidableEq, Repr, Inhabited

/-- The resolution that a directive asks for; mandatory without one. -/
def Resolution.ofDirective : Option String → Except ManifestError Resolution
  | none | some "mandatory" => .ok .mandatory
  | some "optional" => .ok .optional
  | some other => .error (.invalidDirective Key.resolution other)

/-- Whether the packages of a required bundle are passed on to those that
require the requiring bundle. -/
inductive Visibility where
  | concealed
  | reexport
  deriving DecidableEq, Repr, Inhabited

/-- The visibility that a directive asks for; nothing is passed on without
one. -/
def Visibility.ofDirective : Option String → Except ManifestError Visibility
  | none | some "private" => .ok .concealed
  | some "reexport" => .ok .reexport
  | some other => .error (.invalidDirective Key.visibility other)

/-- The part of the framework that an extension adds to. -/
inductive ExtensionKind where
  | framework
  | bootClassPath
  deriving DecidableEq, Repr

/-- The kind of extension that a directive names. -/
def ExtensionKind.ofDirective : String → Except ManifestError ExtensionKind
  | "framework" => .ok .framework
  | "bootclasspath" => .ok .bootClassPath
  | other => .error (.invalidDirective Key.extensionKind other)

/-- When a host accepts fragments: at any time, only while it resolves itself,
or never. -/
inductive FragmentAttachment where
  | always
  | resolveTime
  | never
  deriving DecidableEq, Repr, Inhabited

/-- The attachment that a directive asks for; any time without one. -/
def FragmentAttachment.ofDirective :
    Option String → Except ManifestError FragmentAttachment
  | none | some "always" => .ok .always
  | some "resolve-time" => .ok .resolveTime
  | some "never" => .ok .never
  | some other => .error (.invalidDirective Key.fragmentAttachment other)

/-- Whether a bundle is a singleton; it is not without a directive. -/
def singletonOfDirective : Option String → Except ManifestError Bool
  | none | some "false" => .ok false
  | some "true" => .ok true
  | some other => .error (.invalidDirective Key.singleton other)

namespace Parameters

/-- Two texts for one version: the same range, or where one of them is no range
the same text but for blanks at the ends. -/
def sameVersionText (left right : String) : Bool :=
  match VersionRange.parse left, VersionRange.parse right with
  | .ok leftRange, .ok rightRange => leftRange = rightRange
  | _, _ => Text.trimmed left = Text.trimmed right

/-- The version text of a package under its present or its older name. Both may
stand only if they agree. -/
def packageVersion? (parameters : Parameters) (package : String) :
    Except ManifestError (Option String) :=
  match parameters.attribute? Key.version,
      parameters.attribute? Key.specificationVersion with
  | some version, some legacy =>
      if sameVersionText version legacy then
        .ok (some version)
      else
        .error (.versionMismatch package version legacy)
  | some version, .none => .ok (some version)
  | .none, legacy => .ok legacy

/-- The range that an attribute gives, if the attribute is there. -/
def range? (parameters : Parameters) (key : String) :
    Except ManifestError (Option VersionRange) :=
  match parameters.attribute? key with
  | .none => .ok .none
  | some text => do
      return some (← ManifestError.ofVersion (VersionRange.parse text))

end Parameters

end ModuleWiring
