import JavaSource.Text.Basic

/-!
# A sample of the language

A source text that holds nearly every construct of the language at least once. Its types come after a package
declaration and imports, which can stand only once in a source text.
-/

namespace JavaSource.Workload

def sampleLines : List String :=
  ["",
   "/**",
   " * Package javadoc.",
   " * @author bench",
   " */",
   "@PkgAnn",
   "package com.example.bench;",
   "",
   "import java.util.List;",
   "import java.util.*;",
   "import static java.lang.Math.max;",
   "import static java.lang.Math.*;",
   "",
   "/** Outer class javadoc. */",
   "@Outer @With(1) @Pairs(a = 1, b = \x7b1, 2, @Inner\x7d)",
   "public final class Everything<T extends Comparable<T> & Cloneable, U>",
   "        extends Base<T> implements IfaceA, IfaceB<U> \x7b",
   "",
   "    // fields of every flavour",
   "    public static final int[] ARR = \x7b1, 2, 3\x7d;",
   "    private volatile long counter = 0L, other = 0x1Fp3;",
   "    protected double ratio = 1.23e-4d;",
   "    float f = .5f;",
   "    char ch = '\\n';",
   "    String s = \"heéllo\\n\\t\\0\\07\\101\\\"'\";",
   "    boolean flag = true, nope = false;",
   "    Object nothing = null;",
   "    byte b = 0b1010;",
   "    short sh = 0777;",
   "    int hex = 0xDEAD_BEEF;",
   "    long big = 1_000_000L;",
   "    List<? extends Number> covariant;",
   "    List<? super Integer> contravariant;",
   "    List<?> wild;",
   "    Map<String, List<int[]>> nested;",
   "    Outer.Inner<String>.Deep<Integer> path;",
   "    int plain;",
   "",
   "    static \x7b System.out.println(\"static init\"); \x7d",
   "    \x7b counter++; \x7d",
   "",
   "    /** Ctor doc. */",
   "    @Inject",
   "    public Everything() throws IOException, Err \x7b",
   "        this(1);",
   "    \x7d",
   "",
   "    protected <V> Everything(int x) \x7b",
   "        super();",
   "    \x7d",
   "",
   "    private Everything(String s) \x7b",
   "        super.toString();",
   "    \x7d",
   "",
   "    @Override",
   "    @SuppressWarnings(\x7b\"unchecked\", \"raw\"\x7d)",
   "    public <V extends Runnable> V[] compute(final int a, String... rest)",
   "            throws RuntimeException \x7b",
   "        // local variable declarations",
   "        @Local final int[][] grid = new int[3][];",
   "        int[] flat = new int[]\x7b1, 2, 3\x7d;",
   "        int[][] nestedArr = \x7b\x7b1, 2\x7d, \x7b3, 4\x7d\x7d;",
   "        List<String> names = new ArrayList<>();",
   "        Map<K, V> m = new HashMap<K, V>();",
   "        Outer.Inner inner = outer.new Inner<String>(1) \x7b void foo() \x7b\x7d \x7d;",
   "        Class<?> c1 = String.class;",
   "        Class<?> c2 = int.class;",
   "        Class<?> c3 = void.class;",
   "        Class<?> c4 = int[].class;",
   "        int len = args.length;",
   "        Object sel = this.field[0].call();",
   "        Object par = (a + 1);",
   "        Object tern = flag ? a : b;",
   "        Object cast = (List<String>) obj;",
   "        Object cast2 = (int) 3.0;",
   "        Object inst = obj instanceof String;",
   "        Object pref = -a + +b - ~c + !d;",
   "        int post = a++ + b--;",
   "        int shifted = a << 2 >> 1 >>> 3;",
   "        int logic = a && b || c;",
   "        int bits = a | b & c ^ d;",
   "        int cmp = a < b && c >= d && e == f && g != h;",
   "        Runnable r1 = () -> doThing();",
   "        Runnable r2 = (x) -> \x7b return x; \x7d;",
   "        Runnable r3 = (int x, String y) -> x;",
   "        Runnable r4 = x -> x;",
   "        Runnable r5 = System.out::println;",
   "        Runnable r6 = Foo::<String>bar;",
   "        Runnable r7 = Foo::new;",
   "        Object anon = new Runnable() \x7b",
   "            @Override public void run() \x7b ; \x7d",
   "        \x7d;",
   "        Object genInvoke = this.<String>typed(1);",
   "        Object genInvoke2 = Outer.<String>typed(1);",
   "        Object supM = super.method(1);",
   "        Object supF = super.field;",
   "        Object supG = super.<T>gen();",
   "        Object arrClass = String[].class;",
   "        Object qualThis = Outer.this;",
   "        Object qualSuper = Outer.super.foo();",
   "        Object newGen = new <String>Thing(1);",
   "        int[] dims = new int[a][b][];",
   "",
   "        // assignment operators",
   "        a = 1; a += 1; a -= 1; a *= 2; a /= 2; a %= 2;",
   "        a &= 1; a |= 1; a ^= 1; a <<= 1; a >>= 1; a >>>= 1;",
   "",
   "        // statements",
   "        label1:",
   "        for (int i = 0, j = 10; i < j; i++, j--) \x7b",
   "            if (i == 0) continue label1;",
   "            else if (i == 1) break label1;",
   "            else \x7b doThing(); \x7d",
   "        \x7d",
   "        for (i = 0; ; ) break;",
   "        for (String name : names) System.out.println(name);",
   "        for (final @Ann String name : names) ;",
   "        while (flag) \x7b flag = false; \x7d",
   "        do \x7b counter++; \x7d while (counter < 10);",
   "        switch (a) \x7b",
   "            case 1:",
   "            case 2: doThing(); break;",
   "            default: other();",
   "        \x7d",
   "        synchronized (this) \x7b counter = 0; \x7d",
   "        try \x7b",
   "            risky();",
   "        \x7d catch (final IOException | RuntimeException e) \x7b",
   "            handle(e);",
   "        \x7d catch (Error e) \x7b",
   "        \x7d finally \x7b",
   "            cleanup();",
   "        \x7d",
   "        try (final Res r = open(); Res r2 = open()) \x7b",
   "            use(r);",
   "        \x7d",
   "        assert flag;",
   "        assert flag : \"msg\";",
   "        if (flag) return null;",
   "        throw new RuntimeException(\"boom\");",
   "    \x7d",
   "",
   "    abstract void nothingToDo();",
   "",
   "    native int nativeThing();",
   "",
   "    <X> void genericVoid();",
   "",
   "    int arrRet()[];",
   "",
   "    public static void main(String[] args) \x7b \x7d",
   "",
   "    /** Inner class. */",
   "    @InnerAnn",
   "    static class InnerKlass<Z> \x7b int z; \x7d",
   "",
   "    interface InnerIface \x7b void go(); \x7d",
   "",
   "    enum InnerEnum \x7b A, B; int v; \x7d",
   "",
   "    @interface InnerAnno \x7b int v() default 1; \x7d",
   "\x7d",
   "",
   "/** Sibling interface. */",
   "interface Proto<T> extends Base<T>, Other \x7b",
   "    int CONST = 1, CONST2 = 2;",
   "    int[] ARRC = \x7b1, 2\x7d;",
   "    void run();",
   "    default void walk() \x7b run(); \x7d",
   "    <X> X gen(X x);",
   "    void vret();",
   "    class Nested \x7b\x7d",
   "    interface Sub \x7b\x7d",
   "    enum E \x7b A \x7d",
   "    @interface IA \x7b \x7d",
   "\x7d",
   "",
   "/** Enum with everything. */",
   "enum Colour implements Paintable \x7b",
   "    /** red doc */",
   "    @Bright RED(255) \x7b void shade() \x7b\x7d \x7d,",
   "    GREEN(128),",
   "    BLUE;",
   "    private final int v;",
   "    Colour() \x7b this(0); \x7d",
   "    Colour(int v) \x7b this.v = v; \x7d",
   "    int value() \x7b return v; \x7d",
   "\x7d",
   "",
   "/** Annotation type. */",
   "@Retention",
   "@interface MyAnno \x7b",
   "    String value() default \"x\";",
   "    int[] nums();",
   "    Class<?> type();",
   "    int CONST = 1;",
   "    class Nested \x7b\x7d",
   "    interface NI \x7b\x7d",
   "    enum NE \x7b A \x7d",
   "    @interface NA \x7b\x7d",
   "\x7d",
   "",
   ";",
   ""]

def sample : Text := Text.join [Text.newline] (sampleLines.map Text.ofString)

def sampleMarker : Text := "/** Outer class javadoc. */"

end JavaSource.Workload
