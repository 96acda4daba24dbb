/-!
# Built-in classes

The classes that are there before any module is imported: those that every
module can name, and those of a few modules that declare kinds of classes.
-/

namespace ProviderRegistry.World

/-- Which rules the making of a class follows. -/
inductive Metaclass where
  | plain
  /-- Abstract members keep a class from being instantiated. -/
  | abstract
  /-- Like `abstract`; classes may also state protocols. -/
  | protocol
  | enumeration
  deriving DecidableEq, Repr

/-- A class that is there from the start. -/
structure Builtin where
  module : String
  name : String
  /-- The qualified names of its bases. -/
  bases : List String
  metaclass : Metaclass
  /-- The name of the class that decides how instances are laid out in memory. -/
  layout : String
  /-- Whether other classes may derive from it. -/
  isBase : Bool
  /-- Whether an instance can be made without an argument. -/
  constructible : Bool
  /-- Whether it makes instances in a way of its own, which does not ask whether
  the class is abstract. -/
  ownConstruction : Bool

/-- The built-in classes, each after its bases. -/
def builtinClasses : List Builtin := [
  ⟨"builtins", "object", [], .plain, "object", true, true, false⟩,
  ⟨"builtins", "type", ["builtins.object"], .plain, "type", true, false, true⟩,
  ⟨"builtins", "BaseException", ["builtins.object"], .plain, "BaseException", true, true, true⟩,
  ⟨"builtins", "Exception", ["builtins.BaseException"], .plain, "BaseException", true, true, true⟩,
  ⟨"builtins", "ArithmeticError", ["builtins.Exception"],
    .plain, "BaseException", true, true, true⟩,
  ⟨"builtins", "AssertionError", ["builtins.Exception"], .plain, "BaseException", true, true, true⟩,
  ⟨"builtins", "AttributeError", ["builtins.Exception"],
    .plain, "AttributeError", true, true, false⟩,
  ⟨"builtins", "BaseExceptionGroup", ["builtins.BaseException"],
    .plain, "BaseExceptionGroup", true, false, true⟩,
  ⟨"builtins", "OSError", ["builtins.Exception"], .plain, "OSError", true, true, true⟩,
  ⟨"builtins", "BlockingIOError", ["builtins.OSError"], .plain, "OSError", true, true, false⟩,
  ⟨"builtins", "ConnectionError", ["builtins.OSError"], .plain, "OSError", true, true, false⟩,
  ⟨"builtins", "BrokenPipeError", ["builtins.ConnectionError"],
    .plain, "OSError", true, true, false⟩,
  ⟨"builtins", "BufferError", ["builtins.Exception"], .plain, "BaseException", true, true, true⟩,
  ⟨"builtins", "Warning", ["builtins.Exception"], .plain, "BaseException", true, true, true⟩,
  ⟨"builtins", "BytesWarning", ["builtins.Warning"], .plain, "BaseException", true, true, true⟩,
  ⟨"builtins", "ChildProcessError", ["builtins.OSError"], .plain, "OSError", true, true, false⟩,
  ⟨"builtins", "ConnectionAbortedError", ["builtins.ConnectionError"],
    .plain, "OSError", true, true, false⟩,
  ⟨"builtins", "ConnectionRefusedError", ["builtins.ConnectionError"],
    .plain, "OSError", true, true, false⟩,
  ⟨"builtins", "ConnectionResetError", ["builtins.ConnectionError"],
    .plain, "OSError", true, true, false⟩,
  ⟨"builtins", "DeprecationWarning", ["builtins.Warning"],
    .plain, "BaseException", true, true, true⟩,
  ⟨"builtins", "EOFError", ["builtins.Exception"], .plain, "BaseException", true, true, true⟩,
  ⟨"builtins", "EncodingWarning", ["builtins.Warning"], .plain, "BaseException", true, true, true⟩,
  ⟨"builtins", "ExceptionGroup", ["builtins.BaseExceptionGroup", "builtins.Exception"],
    .plain, "BaseExceptionGroup", true, false, true⟩,
  ⟨"builtins", "FileExistsError", ["builtins.OSError"], .plain, "OSError", true, true, false⟩,
  ⟨"builtins", "FileNotFoundError", ["builtins.OSError"], .plain, "OSError", true, true, false⟩,
  ⟨"builtins", "FloatingPointError", ["builtins.ArithmeticError"],
    .plain, "BaseException", true, true, true⟩,
  ⟨"builtins", "FutureWarning", ["builtins.Warning"], .plain, "BaseException", true, true, true⟩,
  ⟨"builtins", "GeneratorExit", ["builtins.BaseException"],
    .plain, "BaseException", true, true, true⟩,
  ⟨"builtins", "ImportError", ["builtins.Exception"], .plain, "ImportError", true, true, false⟩,
  ⟨"builtins", "ImportWarning", ["builtins.Warning"], .plain, "BaseException", true, true, true⟩,
  ⟨"builtins", "SyntaxError", ["builtins.Exception"], .plain, "SyntaxError", true, true, false⟩,
  ⟨"builtins", "IndentationError", ["builtins.SyntaxError"],
    .plain, "SyntaxError", true, true, false⟩,
  ⟨"builtins", "LookupError", ["builtins.Exception"], .plain, "BaseException", true, true, true⟩,
  ⟨"builtins", "IndexError", ["builtins.LookupError"], .plain, "BaseException", true, true, true⟩,
  ⟨"builtins", "InterruptedError", ["builtins.OSError"], .plain, "OSError", true, true, false⟩,
  ⟨"builtins", "IsADirectoryError", ["builtins.OSError"], .plain, "OSError", true, true, false⟩,
  ⟨"builtins", "KeyError", ["builtins.LookupError"], .plain, "BaseException", true, true, false⟩,
  ⟨"builtins", "KeyboardInterrupt", ["builtins.BaseException"],
    .plain, "BaseException", true, true, true⟩,
  ⟨"builtins", "MemoryError", ["builtins.Exception"], .plain, "BaseException", true, true, true⟩,
  ⟨"builtins", "ModuleNotFoundError", ["builtins.ImportError"],
    .plain, "ImportError", true, true, false⟩,
  ⟨"builtins", "NameError", ["builtins.Exception"], .plain, "NameError", true, true, false⟩,
  ⟨"builtins", "NotADirectoryError", ["builtins.OSError"], .plain, "OSError", true, true, false⟩,
  ⟨"builtins", "RuntimeError", ["builtins.Exception"], .plain, "BaseException", true, true, true⟩,
  ⟨"builtins", "NotImplementedError", ["builtins.RuntimeError"],
    .plain, "BaseException", true, true, true⟩,
  ⟨"builtins", "OverflowError", ["builtins.ArithmeticError"],
    .plain, "BaseException", true, true, true⟩,
  ⟨"builtins", "PendingDeprecationWarning", ["builtins.Warning"],
    .plain, "BaseException", true, true, true⟩,
  ⟨"builtins", "PermissionError", ["builtins.OSError"], .plain, "OSError", true, true, false⟩,
  ⟨"builtins", "ProcessLookupError", ["builtins.OSError"], .plain, "OSError", true, true, false⟩,
  ⟨"builtins", "RecursionError", ["builtins.RuntimeError"],
    .plain, "BaseException", true, true, true⟩,
  ⟨"builtins", "ReferenceError", ["builtins.Exception"], .plain, "BaseException", true, true, true⟩,
  ⟨"builtins", "ResourceWarning", ["builtins.Warning"], .plain, "BaseException", true, true, true⟩,
  ⟨"builtins", "RuntimeWarning", ["builtins.Warning"], .plain, "BaseException", true, true, true⟩,
  ⟨"builtins", "StopAsyncIteration", ["builtins.Exception"],
    .plain, "BaseException", true, true, true⟩,
  ⟨"builtins", "StopIteration", ["builtins.Exception"], .plain, "StopIteration", true, true, false⟩,
  ⟨"builtins", "SyntaxWarning", ["builtins.Warning"], .plain, "BaseException", true, true, true⟩,
  ⟨"builtins", "SystemError", ["builtins.Exception"], .plain, "BaseException", true, true, true⟩,
  ⟨"builtins", "SystemExit", ["builtins.BaseException"], .plain, "SystemExit", true, true, false⟩,
  ⟨"builtins", "TabError", ["builtins.IndentationError"], .plain, "SyntaxError", true, true, false⟩,
  ⟨"builtins", "TimeoutError", ["builtins.OSError"], .plain, "OSError", true, true, false⟩,
  ⟨"builtins", "TypeError", ["builtins.Exception"], .plain, "BaseException", true, true, true⟩,
  ⟨"builtins", "UnboundLocalError", ["builtins.NameError"], .plain, "NameError", true, true, false⟩,
  ⟨"builtins", "ValueError", ["builtins.Exception"], .plain, "BaseException", true, true, true⟩,
  ⟨"builtins", "UnicodeError", ["builtins.ValueError"], .plain, "BaseException", true, true, true⟩,
  ⟨"builtins", "UnicodeDecodeError", ["builtins.UnicodeError"],
    .plain, "UnicodeDecodeError", true, false, true⟩,
  ⟨"builtins", "UnicodeEncodeError", ["builtins.UnicodeError"],
    .plain, "UnicodeEncodeError", true, false, true⟩,
  ⟨"builtins", "UnicodeTranslateError", ["builtins.UnicodeError"],
    .plain, "UnicodeTranslateError", true, false, true⟩,
  ⟨"builtins", "UnicodeWarning", ["builtins.Warning"], .plain, "BaseException", true, true, true⟩,
  ⟨"builtins", "UserWarning", ["builtins.Warning"], .plain, "BaseException", true, true, true⟩,
  ⟨"builtins", "ZeroDivisionError", ["builtins.ArithmeticError"],
    .plain, "BaseException", true, true, true⟩,
  ⟨"builtins", "int", ["builtins.object"], .plain, "int", true, true, true⟩,
  ⟨"builtins", "bool", ["builtins.int"], .plain, "bool", false, true, true⟩,
  ⟨"builtins", "bytearray", ["builtins.object"], .plain, "bytearray", true, true, true⟩,
  ⟨"builtins", "bytes", ["builtins.object"], .plain, "bytes", true, true, true⟩,
  ⟨"builtins", "classmethod", ["builtins.object"], .plain, "classmethod", true, false, true⟩,
  ⟨"builtins", "complex", ["builtins.object"], .plain, "complex", true, true, true⟩,
  ⟨"builtins", "dict", ["builtins.object"], .plain, "dict", true, true, true⟩,
  ⟨"builtins", "enumerate", ["builtins.object"], .plain, "enumerate", true, false, true⟩,
  ⟨"builtins", "filter", ["builtins.object"], .plain, "filter", true, false, true⟩,
  ⟨"builtins", "float", ["builtins.object"], .plain, "float", true, true, true⟩,
  ⟨"builtins", "frozenset", ["builtins.object"], .plain, "frozenset", true, true, true⟩,
  ⟨"builtins", "list", ["builtins.object"], .plain, "list", true, true, true⟩,
  ⟨"builtins", "map", ["builtins.object"], .plain, "map", true, false, true⟩,
  ⟨"builtins", "memoryview", ["builtins.object"], .plain, "memoryview", false, false, true⟩,
  ⟨"builtins", "property", ["builtins.object"], .plain, "property", true, true, true⟩,
  ⟨"builtins", "range", ["builtins.object"], .plain, "range", false, false, true⟩,
  ⟨"builtins", "reversed", ["builtins.object"], .plain, "reversed", true, false, true⟩,
  ⟨"builtins", "set", ["builtins.object"], .plain, "set", true, true, true⟩,
  ⟨"builtins", "slice", ["builtins.object"], .plain, "slice", false, false, true⟩,
  ⟨"builtins", "staticmethod", ["builtins.object"], .plain, "staticmethod", true, false, true⟩,
  ⟨"builtins", "str", ["builtins.object"], .plain, "str", true, true, true⟩,
  ⟨"builtins", "super", ["builtins.object"], .plain, "super", true, false, true⟩,
  ⟨"builtins", "tuple", ["builtins.object"], .plain, "tuple", true, true, true⟩,
  ⟨"builtins", "zip", ["builtins.object"], .plain, "zip", true, true, true⟩,
  ⟨"abc", "ABC", ["builtins.object"], .abstract, "object", true, true, false⟩,
  ⟨"typing", "Generic", ["builtins.object"], .plain, "object", true, true, false⟩,
  ⟨"typing", "Protocol", ["typing.Generic"], .protocol, "object", true, true, false⟩,
  ⟨"enum", "Enum", ["builtins.object"], .enumeration, "object", true, false, false⟩,
  ⟨"enum", "ReprEnum", ["enum.Enum"], .enumeration, "object", true, false, false⟩,
  ⟨"enum", "IntEnum", ["builtins.int", "enum.ReprEnum"], .enumeration, "int", true, false, false⟩,
  ⟨"enum", "StrEnum", ["builtins.str", "enum.ReprEnum"], .enumeration, "str", true, false, false⟩,
  ⟨"enum", "Flag", ["enum.Enum"], .enumeration, "object", true, false, false⟩,
  ⟨"enum", "IntFlag", ["builtins.int", "enum.ReprEnum", "enum.Flag"],
    .enumeration, "int", true, false, false⟩]

end ProviderRegistry.World
