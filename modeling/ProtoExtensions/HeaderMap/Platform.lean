import ProtoExtensions.Text.Lines

/-!
Packages that ship with the platform libraries. Their headers always live in package directories. A
package belongs to the platform when it is a listed package or lies inside one; a package name that
merely begins with the same letters does not. Dots in front of a package are ignored.
-/

namespace ProtoExtensions

/-- The packages of the platform libraries. -/
def platformPackages : List String :=
  ["android", "com.android.internal.util", "com.google.common", "com.google.common.annotations",
   "com.google.common.base", "com.google.common.cache", "com.google.common.collect",
   "com.google.common.hash", "com.google.common.io", "com.google.common.math",
   "com.google.common.net", "com.google.common.primitives", "com.google.common.util",
   "com.google.j2objc", "com.google.protobuf", "dalvik", "java", "javax", "junit", "libcore",
   "org.apache.harmony", "org.hamcrest", "org.json", "org.junit", "org.kxml2", "org.mockito",
   "org.w3c", "org.xml.sax", "org.xmlpull", "sun.misc"]

/-- Whether a package is listed itself. -/
def isListedPackage (package : List Char) : Bool :=
  platformPackages.contains (String.ofList package)

/-- Whether the package around some further segments, or a package on the way down through them, is
listed. An empty outer package adds no dot. -/
def reachesPlatform (outer : List Char) : List (List Char) → Bool
  | [] => false
  | segment :: rest =>
    let package := if outer.isEmpty then segment else outer ++ '.' :: segment
    isListedPackage package || reachesPlatform package rest

/-- Whether a package ships with the platform. -/
def isPlatformPackage (package : String) : Bool :=
  reachesPlatform [] (split '.' package.toList)

example : isPlatformPackage "java.util" = true := by decide +kernel
example : isPlatformPackage "javafx" = false := by decide +kernel

end ProtoExtensions
