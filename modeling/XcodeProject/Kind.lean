/-!
# Kinds of objects

Every object of a project names its kind under the key `isa`.  A kind is any string; those that this
library gives a meaning to are listed here.
-/

namespace XcodeProject.Kind

/-- The project itself. -/
def project : String := "PBXProject"

/-- A folder of the project's own making. -/
def group : String := "PBXGroup"

/-- A group that holds the localisations of one file. -/
def variantGroup : String := "PBXVariantGroup"

/-- A group that holds the versions of one data model. -/
def versionGroup : String := "XCVersionGroup"

/-- A folder whose files belong to the project without being listed. -/
def synchronizedFolder : String := "PBXFileSystemSynchronizedRootGroup"

/-- A file. -/
def fileReference : String := "PBXFileReference"

/-- A product of another project. -/
def referenceProxy : String := "PBXReferenceProxy"

/-- The membership of a file in a build phase. -/
def buildFile : String := "PBXBuildFile"

/-- A target that compiles files. -/
def nativeTarget : String := "PBXNativeTarget"

/-- A target that only groups other targets. -/
def aggregateTarget : String := "PBXAggregateTarget"

/-- A target built by an external tool. -/
def legacyTarget : String := "PBXLegacyTarget"

/-- The build phase that compiles sources. -/
def sourcesPhase : String := "PBXSourcesBuildPhase"

/-- The build phase that installs headers. -/
def headersPhase : String := "PBXHeadersBuildPhase"

/-- One set of build settings. -/
def buildConfiguration : String := "XCBuildConfiguration"

/-- The build configurations of a target or of the project. -/
def configurationList : String := "XCConfigurationList"

/-- An item of another project or of this one. -/
def containerItemProxy : String := "PBXContainerItemProxy"

/-- A target needs another one. -/
def targetDependency : String := "PBXTargetDependency"

/-- A product of a package that a target needs. -/
def packageProduct : String := "XCSwiftPackageProductDependency"

/-- A package named by its address. -/
def remotePackage : String := "XCRemoteSwiftPackageReference"

/-- A package named by its directory. -/
def localPackage : String := "XCLocalSwiftPackageReference"

/-- The kinds that have children in the group tree. -/
def groups : List String :=
  [group, variantGroup, versionGroup]

/-- The kinds of targets. -/
def targets : List String :=
  [nativeTarget, aggregateTarget, legacyTarget]

/-- The build phases and what each of them is called when it has no name of its own. -/
def phaseTitles : List (String × String) :=
  [(sourcesPhase, "Sources"), (headersPhase, "Headers"), ("PBXResourcesBuildPhase", "Resources"),
    ("PBXFrameworksBuildPhase", "Frameworks"), ("PBXCopyFilesBuildPhase", "CopyFiles"),
    ("PBXShellScriptBuildPhase", "ShellScript"), ("PBXRezBuildPhase", "Rez")]

/-- The kinds whose objects are written on one line. -/
def inline : List String :=
  [buildFile, fileReference]

end XcodeProject.Kind
