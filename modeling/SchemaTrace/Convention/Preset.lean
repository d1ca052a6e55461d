import SchemaTrace.Convention.Basic
/-!
Conventions that are built in: how the inspectors of Hermes and of React Native name the members
of the protocol.
-/
namespace SchemaTrace.Preset

def hermesName : String := "hermes"
def hermesLegacyName : String := "hermes-legacy"
def reactNativeName : String := "react-native"
def reactNativeHermesName : String := "react-native-hermes"

def names : List String := [hermesName, hermesLegacyName, reactNativeName]

def wireNeedle : String := "\x7bwire\x7d"

def typeNeedle : String := "\x7bdomainCamel\x7d::\x7bmemberPascal\x7d"

def commandNeedles : List String :=
  ["m::" ++ typeNeedle ++ "Request", "m::" ++ typeNeedle ++ "Response", wireNeedle]

def eventNeedles : List String := ["m::" ++ typeNeedle ++ "Notification", wireNeedle]

def handlerFile : String := "API/hermes/inspector/chrome/CDPHandler.cpp"
def messageTypesFile : String := "API/hermes/inspector/chrome/MessageTypes.h"

def cppSources (root : String) : Scope := { roots := [root], extensions := ["cpp", "h"] }

/-- The agents of Hermes; generated message types live beside them. -/
def hermes : Convention :=
  let generated := ["**/Message*", "**/Message*/**"]
  { displayName := "Hermes"
    repo := { owner := "facebook", name := "hermes" }
    scope := cppSources "API/hermes/cdp"
    subsets := .ofList [("agent", ⟨[], generated⟩), ("codegen", ⟨generated, []⟩)]
    rules :=
      ⟨some ⟨"agent", commandNeedles⟩, some ⟨"agent", eventNeedles⟩,
        some ⟨"codegen", [typeNeedle]⟩⟩
    comments := ["agent"] }

/-- The single-file inspector of Hermes that came before the agents. -/
def hermesLegacy : Convention :=
  { displayName := "Hermes (CDPHandler)"
    repo := { owner := "facebook", name := "hermes" }
    scope := { files := [handlerFile, messageTypesFile] }
    subsets := .ofList
      [("handler", ⟨[handlerFile], []⟩), ("messageTypes", ⟨[messageTypesFile], []⟩)]
    rules :=
      ⟨some ⟨"handler", commandNeedles⟩, some ⟨"handler", eventNeedles⟩,
        some ⟨"messageTypes", [typeNeedle]⟩⟩ }

def reactNative : Convention :=
  { displayName := "React Native"
    repo := { owner := "facebook", name := "react-native" }
    scope := cppSources "packages/react-native/ReactCommon/jsinspector-modern"
    rules := ⟨some ⟨allFiles, [wireNeedle]⟩, some ⟨allFiles, [wireNeedle]⟩, none⟩
    comments := [allFiles] }

def find? (name : String) : Option Convention :=
  if name = hermesName then some hermes
  else if name = hermesLegacyName then some hermesLegacy
  else if name = reactNativeName then some reactNative
  else none

end SchemaTrace.Preset
