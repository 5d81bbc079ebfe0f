import XcodeProject.Text.Basic

/-!
# File types

The type of a file is told by its extension, the part of its name after the last dot, without regard
to ASCII case.  A name that begins with its only dot, or ends with a dot, has no extension.
-/

namespace XcodeProject.FileType

/-- The extension of a file name, in ASCII lower case. -/
def extension? (name : String) : Option String :=
  match Text.splitAtLast '.' name.toList with
  | some (_ :: _, c :: ext) => some (String.ofList ((c :: ext).map Char.toLower))
  | _ => none

/-- The types of files by extension. -/
def known : List (String × String) :=
  [("a", "archive.ar"), ("app", "wrapper.application"), ("bundle", "wrapper.plug-in"),
    ("c", "sourcecode.c.c"), ("cc", "sourcecode.cpp.cpp"), ("cpp", "sourcecode.cpp.cpp"),
    ("css", "text.css"), ("cxx", "sourcecode.cpp.cpp"), ("dylib", "compiled.mach-o.dylib"),
    ("framework", "wrapper.framework"), ("h", "sourcecode.c.h"), ("hh", "sourcecode.cpp.h"),
    ("hpp", "sourcecode.cpp.h"), ("html", "text.html"),
    ("intentdefinition", "file.intentdefinition"), ("js", "sourcecode.javascript"),
    ("json", "text.json"), ("m", "sourcecode.c.objc"),
    ("markdown", "net.daringfireball.markdown"), ("md", "net.daringfireball.markdown"),
    ("metal", "sourcecode.metal"), ("mm", "sourcecode.cpp.objcpp"),
    ("modulemap", "sourcecode.module"), ("pch", "sourcecode.c.h"), ("plist", "text.plist.xml"),
    ("png", "image.png"), ("sh", "text.script.sh"), ("storyboard", "file.storyboard"),
    ("strings", "text.plist.strings"), ("swift", "sourcecode.swift"),
    ("tbd", "sourcecode.text-based-dylib-definition"), ("xcassets", "folder.assetcatalog"),
    ("xcconfig", "text.xcconfig"), ("xcdatamodel", "wrapper.xcdatamodel"), ("xib", "file.xib"),
    ("xml", "text.xml"), ("yaml", "text.yaml"), ("yml", "text.yaml")]

/-- The type of a file; a file whose extension is not known is text. -/
def ofName (name : String) : String :=
  ((extension? name).bind (known.lookup ·)).getD "text"

/-- The extensions of headers. -/
def headers : List String :=
  ["h", "hh", "hpp", "hxx", "ipp", "pch", "def", "tpp", "inl", "inc"]

/-- The file is a header. -/
def isHeader (name : String) : Bool :=
  (extension? name).any (· ∈ headers)

end XcodeProject.FileType
