/-!
# Names of the keys

The keys of the host input system in the order of their codes, which count from zero. Some keys have
further names from older systems beside their own.
-/

namespace ShaderFilter

/-- The name of every key, with its further names, in the order of the codes. -/
def keyNames : List (String × List String) :=
  [ ("None", []), ("Cancel", []), ("Back", []), ("Tab", []), ("LineFeed", []), ("Clear", []),
    ("Enter", ["Return"]), ("Pause", []), ("CapsLock", ["Capital"]), ("KanaMode", ["HangulMode"]),
    ("JunjaMode", []), ("FinalMode", []), ("HanjaMode", ["KanjiMode"]), ("Escape", []),
    ("ImeConvert", []), ("ImeNonConvert", []), ("ImeAccept", []), ("ImeModeChange", []),
    ("Space", []), ("PageUp", ["Prior"]), ("PageDown", ["Next"]), ("End", []), ("Home", []),
    ("Left", []), ("Up", []), ("Right", []), ("Down", []), ("Select", []), ("Print", []),
    ("Execute", []), ("PrintScreen", ["Snapshot"]), ("Insert", []), ("Delete", []), ("Help", []),
    ("D0", []), ("D1", []), ("D2", []), ("D3", []), ("D4", []), ("D5", []), ("D6", []), ("D7", []),
    ("D8", []), ("D9", []), ("A", []), ("B", []), ("C", []), ("D", []), ("E", []), ("F", []),
    ("G", []), ("H", []), ("I", []), ("J", []), ("K", []), ("L", []), ("M", []), ("N", []),
    ("O", []), ("P", []), ("Q", []), ("R", []), ("S", []), ("T", []), ("U", []), ("V", []),
    ("W", []), ("X", []), ("Y", []), ("Z", []), ("LWin", []), ("RWin", []), ("Apps", []),
    ("Sleep", []), ("NumPad0", []), ("NumPad1", []), ("NumPad2", []), ("NumPad3", []),
    ("NumPad4", []), ("NumPad5", []), ("NumPad6", []), ("NumPad7", []), ("NumPad8", []),
    ("NumPad9", []), ("Multiply", []), ("Add", []), ("Separator", []), ("Subtract", []),
    ("Decimal", []), ("Divide", []), ("F1", []), ("F2", []), ("F3", []), ("F4", []), ("F5", []),
    ("F6", []), ("F7", []), ("F8", []), ("F9", []), ("F10", []), ("F11", []), ("F12", []),
    ("F13", []), ("F14", []), ("F15", []), ("F16", []), ("F17", []), ("F18", []), ("F19", []),
    ("F20", []), ("F21", []), ("F22", []), ("F23", []), ("F24", []), ("NumLock", []),
    ("Scroll", []), ("LeftShift", []), ("RightShift", []), ("LeftCtrl", []), ("RightCtrl", []),
    ("LeftAlt", []), ("RightAlt", []), ("BrowserBack", []), ("BrowserForward", []),
    ("BrowserRefresh", []), ("BrowserStop", []), ("BrowserSearch", []), ("BrowserFavorites", []),
    ("BrowserHome", []), ("VolumeMute", []), ("VolumeDown", []), ("VolumeUp", []),
    ("MediaNextTrack", []), ("MediaPreviousTrack", []), ("MediaStop", []), ("MediaPlayPause", []),
    ("LaunchMail", []), ("SelectMedia", []), ("LaunchApplication1", []),
    ("LaunchApplication2", []), ("OemSemicolon", ["Oem1"]), ("OemPlus", []), ("OemComma", []),
    ("OemMinus", []), ("OemPeriod", []), ("OemQuestion", ["Oem2"]), ("OemTilde", ["Oem3"]),
    ("AbntC1", []), ("AbntC2", []), ("OemOpenBrackets", ["Oem4"]), ("OemPipe", ["Oem5"]),
    ("OemCloseBrackets", ["Oem6"]), ("OemQuotes", ["Oem7"]), ("Oem8", []),
    ("OemBackslash", ["Oem102"]), ("ImeProcessed", []), ("System", []),
    ("OemAttn", ["DbeAlphanumeric"]), ("OemFinish", ["DbeKatakana"]), ("OemCopy", ["DbeHiragana"]),
    ("OemAuto", ["DbeSbcsChar"]), ("OemEnlw", ["DbeDbcsChar"]), ("OemBackTab", ["DbeRoman"]),
    ("Attn", ["DbeNoRoman"]), ("CrSel", ["DbeEnterWordRegisterMode"]),
    ("ExSel", ["DbeEnterImeConfigureMode"]), ("EraseEof", ["DbeFlushString"]),
    ("Play", ["DbeCodeInput"]), ("Zoom", ["DbeNoCodeInput"]), ("NoName", ["DbeDetermineString"]),
    ("Pa1", ["DbeEnterDialogConversionMode"]), ("OemClear", []), ("DeadCharProcessed", []) ]

set_option maxRecDepth 4000 in
theorem length_keyNames : keyNames.length = 173 := rfl

end ShaderFilter
