import ErrorHints.Knowledge.Basic

/-!
# The standard knowledge

The tables that are used where no settings replace them.
-/
namespace ErrorHints.Knowledge

/-- Top-level modules of the standard distribution, in alphabetical order. -/
def standardModules : List String :=
  ["__future__", "abc", "argparse", "array", "ast", "asyncio", "atexit", "base64", "bdb",
   "binascii", "bisect", "builtins", "bz2", "calendar", "cmath", "cmd", "code", "codecs",
   "collections", "colorsys", "compileall", "concurrent", "configparser", "contextlib",
   "contextvars", "copy", "copyreg", "cProfile", "csv", "ctypes", "curses", "dataclasses",
   "datetime", "dbm", "decimal", "difflib", "dis", "doctest", "email", "encodings", "enum",
   "errno", "faulthandler", "fcntl", "filecmp", "fileinput", "fnmatch", "fractions", "ftplib",
   "functools", "gc", "getopt", "getpass", "gettext", "glob", "graphlib", "grp", "gzip",
   "hashlib", "heapq", "hmac", "html", "http", "imaplib", "importlib", "inspect", "io",
   "ipaddress", "itertools", "json", "keyword", "linecache", "locale", "logging", "lzma",
   "mailbox", "marshal", "math", "mimetypes", "mmap", "multiprocessing", "netrc", "numbers",
   "operator", "optparse", "os", "pathlib", "pdb", "pickle", "pkgutil", "platform", "plistlib",
   "poplib", "posix", "pprint", "profile", "pstats", "pty", "pwd", "py_compile", "queue",
   "quopri", "random", "re", "readline", "reprlib", "resource", "rlcompleter", "runpy", "sched",
   "secrets", "select", "selectors", "shelve", "shlex", "shutil", "signal", "site", "smtplib",
   "socket", "socketserver", "sqlite3", "ssl", "stat", "statistics", "string", "stringprep",
   "struct", "subprocess", "symtable", "sys", "sysconfig", "syslog", "tabnanny", "tarfile",
   "tempfile", "termios", "textwrap", "threading", "time", "timeit", "tkinter", "token",
   "tokenize", "tomllib", "trace", "traceback", "tracemalloc", "tty", "turtle", "types",
   "typing", "unicodedata", "unittest", "urllib", "uuid", "venv", "warnings", "wave", "weakref",
   "webbrowser", "wsgiref", "xml", "xmlrpc", "zipapp", "zipfile", "zipimport", "zlib", "zoneinfo"]

/-- Words that cannot be names. -/
def standardReservedWords : List String :=
  ["False", "None", "True", "and", "as", "assert", "async", "await", "break", "class",
   "continue", "def", "del", "elif", "else", "except", "finally", "for", "from", "global", "if",
   "import", "in", "is", "lambda", "nonlocal", "not", "or", "pass", "raise", "return", "try",
   "while", "with", "yield"]

/-- Attributes that mean the same on different containers or in other languages. -/
def standardSynonymSets : List (List String) :=
  [["append", "add", "push"],
   ["extend", "update"],
   ["remove", "discard", "__delitem__"],
   ["strip", "trim"],
   ["lstrip", "trim_start", "ltrim"],
   ["rstrip", "trim_end", "rtrim"],
   ["lower", "to_lower", "tolower", "downcase"],
   ["upper", "to_upper", "toupper", "upcase"],
   ["startswith", "starts_with", "startsWith"],
   ["endswith", "ends_with", "endsWith"],
   ["items", "entries"],
   ["index", "find", "indexOf"]]

/-- Attributes that newer runtimes removed. -/
def standardRemovedAttributes : Table RemovedAttribute :=
  let entries : List (String × RemovedAttribute) := [
    ("has_key", ⟨"key in \x7btype\x7d", some "__contains__"⟩),
    ("iteritems", ⟨"items", some "items"⟩),
    ("iterkeys", ⟨"keys", some "keys"⟩),
    ("itervalues", ⟨"values", some "values"⟩),
    ("viewitems", ⟨"items", some "items"⟩),
    ("viewkeys", ⟨"keys", some "keys"⟩),
    ("viewvalues", ⟨"values", some "values"⟩),
    ("xreadlines", ⟨"for line in file", some "__iter__"⟩),
    ("next", ⟨"next(\x7btype\x7d)", some "__next__"⟩),
    ("im_func", ⟨"__func__", some "__func__"⟩),
    ("im_self", ⟨"__self__", some "__self__"⟩),
    ("func_name", ⟨"__name__", some "__name__"⟩),
    ("func_code", ⟨"__code__", some "__code__"⟩),
    ("func_defaults", ⟨"__defaults__", some "__defaults__"⟩),
    ("func_globals", ⟨"__globals__", some "__globals__"⟩),
    ("func_doc", ⟨"__doc__", some "__doc__"⟩)]
  .ofList entries

/-- Names that are no typos of anything but still have an obvious meaning. -/
def standardSpecialCases : Table String :=
  .ofList [
    ("i", "'1j' (imaginary unit)"),
    ("j", "'1j' (imaginary unit)"),
    ("ls", "'os.listdir(os.getcwd())'"),
    ("pwd", "'os.getcwd()'"),
    ("cd", "'os.chdir(path)'"),
    ("unicode", "'str'"),
    ("basestring", "'str'"),
    ("long", "'int'"),
    ("xrange", "'range'"),
    ("raw_input", "'input'"),
    ("unichr", "'chr'"),
    ("file", "'open'"),
    ("execfile", "'exec(open(path).read())'"),
    ("buffer", "'memoryview'"),
    ("intern", "'sys.intern'"),
    ("reload", "'importlib.reload'"),
    ("apply", "'function(*args, **kwargs)'"),
    ("cmp", "'(a > b) - (a < b)'"),
    ("null", "'None'"),
    ("nil", "'None'"),
    ("this", "'self'")]

/-- Modules that moved in a later version. -/
def standardRenamedModules : Table String :=
  .ofList [
    ("Tkinter", "tkinter"),
    ("tkMessageBox", "tkinter.messagebox"),
    ("ConfigParser", "configparser"),
    ("Queue", "queue"),
    ("SocketServer", "socketserver"),
    ("StringIO", "io"),
    ("cStringIO", "io"),
    ("cPickle", "pickle"),
    ("urllib2", "urllib.request"),
    ("urlparse", "urllib.parse"),
    ("HTMLParser", "html.parser"),
    ("httplib", "http.client"),
    ("Cookie", "http.cookies"),
    ("cookielib", "http.cookiejar"),
    ("BaseHTTPServer", "http.server"),
    ("SimpleHTTPServer", "http.server"),
    ("__builtin__", "builtins"),
    ("commands", "subprocess"),
    ("thread", "_thread"),
    ("copy_reg", "copyreg"),
    ("repr", "reprlib"),
    ("anydbm", "dbm"),
    ("xmlrpclib", "xmlrpc.client"),
    ("md5", "hashlib"),
    ("sha", "hashlib")]

/-- Calls that build everything at once. -/
def standardMemoryAlternatives : Table String :=
  .ofList [
    ("readlines", "'iter(file)'"),
    ("read", "'read(size)' in a loop"),
    ("sorted", "'list.sort()' (in place)"),
    ("list", "'itertools.islice'")]

/-- Calls whose arguments overflow a machine-sized number. -/
def standardOverflowAlternatives : Table String :=
  .ofList [
    ("range", "'itertools.count()'"),
    ("pow", "'pow(base, exp, mod)'"),
    ("exp", "'decimal.Decimal(x).exp()'"),
    ("float", "'fractions.Fraction'")]

/-- Types that cannot be hashed. -/
def standardHashableAlternatives : Table String :=
  .ofList [
    ("list", "'tuple'"),
    ("set", "'frozenset'"),
    ("bytearray", "'bytes'"),
    ("dict", "'frozenset(dict.items())'")]

/-- Everything known without settings. -/
def standard : Knowledge where
  modules := standardModules
  reservedWords := standardReservedWords
  synonymSets := standardSynonymSets
  removedAttributes := standardRemovedAttributes
  specialCases := standardSpecialCases
  renamedModules := standardRenamedModules
  memoryAlternatives := standardMemoryAlternatives
  overflowAlternatives := standardOverflowAlternatives
  hashableAlternatives := standardHashableAlternatives

end ErrorHints.Knowledge
