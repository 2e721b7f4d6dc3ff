/-!
# Libraries

A generator may write code for one of several libraries. The library decides
how requests are made and how values are written, and whether the models are
entities of a database instead: then there is nothing to make requests with.
-/

namespace ClientGen.Kotlin

/-- **A library.** -/
inductive Library where
  | multiplatform
  | okhttp4
  | retrofit2
  | room
  | room2
deriving DecidableEq, Repr, Inhabited

namespace Library

/-- The name that selects a library. -/
def name : Library → String
  | .multiplatform => "multiplatform"
  | .okhttp4 => "jvm-okhttp4"
  | .retrofit2 => "jvm-retrofit2"
  | .room => "room"
  | .room2 => "room2"

/-- What a library is, in one line. -/
def description : Library → String
  | .multiplatform =>
    "Platform: Kotlin multiplatform. HTTP client: Ktor 1.2.4. JSON processing: Kotlinx "
      ++ "Serialization: 0.12.0."
  | .okhttp4 =>
    "Platform: Java Virtual Machine. HTTP client: OkHttp 4.2.0 (Android 5.0+ and Java 8+). "
      ++ "JSON processing: Moshi 1.8.0."
  | .retrofit2 => "Platform: Java Virtual Machine. HTTP client: Retrofit 2.6.2."
  | .room => "Platform: Room v1. JSON processing: Moshi 1.9.2."
  | .room2 => "Platform: Room v2 (androidx). JSON processing: Moshi 1.9.2."

/-- What a library is, in a few words. -/
def title : Library → String
  | .multiplatform => "Kotlin multiplatform (Ktor)"
  | .okhttp4 => "JVM with OkHttp 4"
  | .retrofit2 => "JVM with Retrofit 2"
  | .room => "Room v1 entities"
  | .room2 => "Room v2 (androidx) entities"

/-- The package of the annotations of entities, if models are entities. -/
def entityPackage? : Library → Option String
  | .room => some "android.arch.persistence.room"
  | .room2 => some "androidx.room"
  | _ => none

/-- All libraries, in the order in which they are listed. -/
def all : List Library := [.multiplatform, .okhttp4, .retrofit2, .room, .room2]

end Library

end ClientGen.Kotlin
